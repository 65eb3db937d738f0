import Mathlib.Data.List.Basic
import Mathlib.Tactic.Ring

/-!
# Seekable streams

What a machine answers to one call after the other, and the simulation rule for two machines
(`replies_eq_of_simulation`).  A stream that is held in memory is such a machine: `Memory` has the
calls of a seekable stream of bytes, where a seek counts from the start, from the position or from
the end and any other way of counting is refused.
-/

namespace Streams

/-! ## Machines -/

section Machines

variable {σ τ α β : Type} (step : σ → α → β × σ) (step' : τ → α → β × τ)

/-- The answers to one call after the other. -/
def replies : σ → List α → List β
  | _, [] => []
  | state, call :: calls => (step state call).1 :: replies (step state call).2 calls

/-- The state after one call and the other. -/
def after : σ → List α → σ
  | state, [] => state
  | state, call :: calls => after (step state call).2 calls

variable {step step'}

/-- What every call preserves holds after all of them, and what it makes true of an answer is true
of every answer. -/
lemma replies_forall {I : σ → Prop} {P : β → Prop}
    (hstep : ∀ s call, I s → P (step s call).1 ∧ I (step s call).2) {state : σ} (h : I state)
    (calls : List α) : (∀ reply ∈ replies step state calls, P reply) ∧
      I (after step state calls) := by
  induction calls generalizing state with
  | nil => exact ⟨fun reply hmem => (List.not_mem_nil hmem).elim, h⟩
  | cons call calls ih =>
      obtain ⟨hreply, hnext⟩ := hstep state call h
      obtain ⟨hreplies, hafter⟩ := ih hnext
      exact ⟨List.forall_mem_cons.2 ⟨hreply, hreplies⟩, hafter⟩

/-- Machines whose related states give the same answer to each call and stay related answer alike,
however many calls there are. -/
theorem replies_eq_of_simulation {R : σ → τ → Prop}
    (hstep : ∀ s t call, R s t →
      (step s call).1 = (step' t call).1 ∧ R (step s call).2 (step' t call).2)
    {s : σ} {t : τ} (h : R s t) (calls : List α) :
    replies step s calls = replies step' t calls ∧
      R (after step s calls) (after step' t calls) := by
  induction calls generalizing s t with
  | nil => exact ⟨rfl, h⟩
  | cons call calls ih =>
      obtain ⟨hreply, hnext⟩ := hstep s t call h
      obtain ⟨hreplies, hafter⟩ := ih hnext
      exact ⟨by rw [replies, replies, hreply, hreplies], hafter⟩

end Machines

/-! ## Streams in memory -/

/-- A stream of bytes that is held in memory. -/
structure Memory where
  content : List UInt8
  position : ℕ
  deriving DecidableEq, Repr

/-- Why a seek is refused. -/
inductive SeekError
  | negative (offset : ℤ)
  | whence (value : ℤ)

namespace Memory

/-- The place that a seek is to: 0 counts from the start, 1 from the position, 2 from the end. -/
def target (m : Memory) (offset whence : ℤ) : Option ℤ :=
  if whence = 0 then some offset
  else if whence = 1 then some (m.position + offset)
  else if whence = 2 then some (m.content.length + offset)
  else none

/-- A place before the start is refused when it counts from there, and is the start otherwise; one
behind the end is allowed. -/
def seek (m : Memory) (offset whence : ℤ) : Except SeekError ℤ × Memory :=
  match m.target offset whence with
  | none => (.error (.whence whence), m)
  | some target =>
      if whence = 0 ∧ target < 0 then (.error (.negative target), m)
      else (.ok (max target 0), { m with position := target.toNat })

/-- The next bytes, all that are left when the size is negative. -/
def read (m : Memory) (size : ℤ) : List UInt8 × Memory :=
  let rest := m.content.drop m.position
  let value := if size < 0 then rest else rest.take size.toNat
  (value, { m with position := m.position + value.length })

/-- A seek to a place in the stream leads there. -/
lemma seek_of_target {m : Memory} {offset whence target : ℤ}
    (h : m.target offset whence = some target) (hpos : 0 ≤ target) :
    m.seek offset whence = (.ok target, { m with position := target.toNat }) := by
  rw [seek, h]
  dsimp only
  rw [if_neg (by omega), max_eq_left hpos]

lemma seek_content (m : Memory) (offset whence : ℤ) :
    (m.seek offset whence).2.content = m.content := by
  unfold seek
  split
  · rfl
  · split <;> rfl

/-- A read of so many bytes. -/
lemma read_natCast (m : Memory) (count : ℕ) :
    m.read count = ((m.content.drop m.position).take count,
      ⟨m.content, m.position + ((m.content.drop m.position).take count).length⟩) := by
  rw [read, if_neg (by omega), Int.toNat_natCast]

/-- What a read returns is a piece of the bytes. -/
lemma read_infix (m : Memory) (size : ℤ) : (m.read size).1 <:+: m.content := by
  have hrest : m.content.drop m.position <:+: m.content := (List.drop_suffix _ _).isInfix
  unfold read
  dsimp only
  split
  · exact hrest
  · exact (List.take_prefix _ _).isInfix.trans hrest

end Memory

end Streams
