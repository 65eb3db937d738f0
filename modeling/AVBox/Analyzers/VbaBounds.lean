import AVBox.Analyzers.Vba
import AVBox.Lib.Fallible
import Mathlib.Logic.Relation
import Mathlib.Tactic.IntervalCases

/-!
# The VBA decompressor on any input

How far the loop over a compressed chunk gets.  A byte of the chunk adds at most five bytes of text,
except for one token below position 4096, which takes the position to 4113 at most.  So a chunk of
4096 bytes stays far below position 65536 (`Bounded`), from which on a copy token would be split by
a negative shift.  `decompressVba_safe` is about every state that a run goes through.
-/

namespace AVBox

open Binary Ovba Relation

namespace Vba

/-! ## The states of a run -/

/-- Where the loop over a compressed chunk is. -/
structure ChunkState where
  flags : ℕ
  bits : ℕ
  body : Bytes
  output : Bytes

def ChunkState.expand (maximum start : ℕ) (state : ChunkState) : Except Exc (Option Bytes) :=
  Vba.expand maximum start state.flags state.bits state.body state.output

/-- How far the text of the chunk has got. -/
def ChunkState.position (start : ℕ) (state : ChunkState) : ℕ := state.output.length - start

/-- The loop goes on with the next flags, past a literal, or past a copy token. -/
inductive ExpandStep (maximum start : ℕ) : ChunkState → ChunkState → Prop
  | flags (old : ℕ) (flags : UInt8) (body output : Bytes) :
      ExpandStep maximum start ⟨old, 0, flags :: body, output⟩ ⟨flags.toNat, 8, body, output⟩
  | literal {flags : ℕ} (bits : ℕ) (first : UInt8) (body : Bytes) {output : Bytes}
      (flag : flags % 2 ≠ 1) (fits : (output ++ [first]).length ≤ maximum) :
      ExpandStep maximum start ⟨flags, bits + 1, first :: body, output⟩
        ⟨flags / 2, bits, body, output ++ [first]⟩
  | copy {flags : ℕ} (bits : ℕ) {first second : UInt8} (body : Bytes) {output output' : Bytes}
      (flag : flags % 2 = 1)
      (token : copyToken maximum (output.length - start) (le16 [first, second] 0) output =
        .ok (some output')) :
      ExpandStep maximum start ⟨flags, bits + 1, first :: second :: body, output⟩
        ⟨flags / 2, bits, body, output'⟩

/-- The header of a chunk, which lies in the data. -/
structure ChunkSound (data : Bytes) : Prop where
  header : 2 ≤ data.length
  signature : le16 data 0 &&& 0x7000 = 0x3000
  size : (le16 data 0 &&& 0x0FFF) + 3 ≤ data.length

/-- The chunk behind its header. -/
def chunkBody (data : Bytes) : Bytes := slice data 2 ((le16 data 0 &&& 0x0FFF) + 3)

/-- The loop over the chunks goes on behind a chunk. -/
inductive ChunkStep (maximum : ℕ) : Bytes × Bytes → Bytes × Bytes → Prop
  | next {data output output' : Bytes} (sound : ChunkSound data)
      (expands : expandChunk maximum (le16 data 0) (chunkBody data) output = .ok (some output'))
      (fits : output'.length ≤ maximum) :
      ChunkStep maximum (data, output) (data.drop ((le16 data 0 &&& 0x0FFF) + 3), output')

/-- The run on this data goes through this state of the loop over a compressed chunk, whose text
begins at this place. -/
def Visits (maximum : ℕ) (data : Bytes) (start : ℕ) (state : ChunkState) : Prop :=
  data.head? = some 1 ∧ ∃ rest output,
    ReflTransGen (ChunkStep maximum) (data.tail, []) (rest, output) ∧ ChunkSound rest ∧
      le16 rest 0 &&& 0x8000 ≠ 0 ∧ start = output.length ∧
      ReflTransGen (ExpandStep maximum start) ⟨0, 0, chunkBody rest, output⟩ state

/-- The shift that splits a copy token is not negative, and the bytes that it repeats are of its own
chunk. -/
structure ChunkState.Sound (start : ℕ) (state : ChunkState) : Prop where
  position : state.position start < 65536
  shift : codeBits (state.position start) ≤ 16
  inside : ∀ token, (token >>> (16 - codeBits (state.position start))) + 1 ≤ state.position start →
    ∀ copied,
      let place := state.output.length + copied -
        ((token >>> (16 - codeBits (state.position start))) + 1)
      start ≤ place ∧ place < state.output.length + copied

/-! ## The growth of a chunk -/

lemma lt_two_pow_codeBits (position : ℕ) : position < 2 ^ codeBits position := by
  have hsize : max 1 position < 2 ^ codeBits position :=
    Nat.size_le.1 (Nat.le_max_right _ _)
  exact (Nat.le_max_right 1 position).trans_lt hsize

lemma codeBits_le_of_lt {position bits : ℕ} (hbits : 4 ≤ bits) (h : position < 2 ^ bits) :
    codeBits position ≤ bits := by
  have hone : 1 < 2 ^ bits := Nat.one_lt_two_pow (by omega)
  exact Nat.max_le.2 ⟨hbits, Nat.size_le.2 (Nat.max_lt.2 ⟨hone, h⟩)⟩

/-- The longest copy below position 4096. -/
lemma copy_below {position : ℕ} (h : position < 4096) :
    position + (2 ^ (16 - codeBits position) + 2) ≤ 4113 := by
  have hlow : 4 ≤ codeBits position := Nat.le_max_left _ _
  have hhigh : codeBits position ≤ 12 := codeBits_le_of_lt (by decide) h
  have hlt := lt_two_pow_codeBits position
  generalize codeBits position = bits at *
  interval_cases bits <;> omega

/-- The longest copy from there on. -/
lemma copy_above {position : ℕ} (h : 4096 ≤ position) : 2 ^ (16 - codeBits position) + 2 ≤ 10 := by
  have hbits : 12 < codeBits position := by
    refine (Nat.lt_size.2 ?_).trans_le (Nat.le_max_right _ _)
    exact h.trans (Nat.le_max_right _ _)
  have hpow : 2 ^ (16 - codeBits position) ≤ 2 ^ 3 := Nat.pow_le_pow_right (by decide) (by omega)
  omega

/-- What a copy token adds. -/
lemma length_of_copyToken {maximum position token : ℕ} {output output' : Bytes}
    (h : copyToken maximum position token output = .ok (some output')) :
    output.length ≤ output'.length ∧
      output'.length ≤ output.length + (2 ^ (16 - codeBits position) + 2) := by
  unfold copyToken at h
  split at h
  · cases h
  dsimp only at h
  split at h
  · cases h
  · have hmask : token &&& (1 <<< (16 - codeBits position) - 1) ≤
        1 <<< (16 - codeBits position) - 1 := Nat.and_le_right
    rw [Nat.one_shiftLeft] at hmask h
    have hpos : 0 < 2 ^ (16 - codeBits position) := Nat.two_pow_pos _
    obtain ⟨-, hcopy⟩ := Option.ite_none_left_eq_some.1 (Except.ok.inj h)
    obtain rfl := Option.some.inj hcopy
    rw [length_copyBack]
    omega

/-- The position that a chunk of 4096 bytes cannot pass. -/
def lastPosition : ℕ := 4113 + 5 * 4096

/-- The bytes that are to come cannot take the chunk past that position. -/
structure Bounded (start : ℕ) (state : ChunkState) : Prop where
  body : state.body.length ≤ 4096
  start_le : start ≤ state.output.length
  grown : state.output.length + 5 * state.body.length ≤ start + lastPosition

lemma Bounded.position_lt {start : ℕ} {state : ChunkState} (h : Bounded start state) :
    state.position start < 65536 := by
  have hgrown := h.grown
  unfold ChunkState.position
  unfold lastPosition at hgrown
  omega

lemma Bounded.codeBits_le {start : ℕ} {state : ChunkState} (h : Bounded start state) :
    codeBits (state.position start) ≤ 16 := codeBits_le_of_lt (by decide) h.position_lt

lemma Bounded.sound {start : ℕ} {state : ChunkState} (h : Bounded start state) :
    state.Sound start := by
  refine ⟨h.position_lt, h.codeBits_le, fun token hoffset copied => ?_⟩
  have hstart := h.start_le
  unfold ChunkState.position at hoffset ⊢
  generalize token >>> _ = high at hoffset ⊢
  dsimp only
  omega

/-- A step uses up as many bytes as it needs for what it adds. -/
lemma Bounded.step {maximum start : ℕ} {state state' : ChunkState} (h : Bounded start state)
    (hstep : ExpandStep maximum start state state') : Bounded start state' := by
  obtain ⟨hbody, hstart, hgrown⟩ := h
  cases hstep with
  | flags old flags body output =>
      simp only [List.length_cons] at hbody hgrown
      exact ⟨by dsimp only; omega, hstart, by dsimp only; omega⟩
  | literal bits first body flag fits =>
      simp only [List.length_cons] at hbody hstart hgrown
      refine ⟨by dsimp only; omega, ?_, ?_⟩
      all_goals
        dsimp only
        rw [List.length_append, List.length_singleton]
        omega
  | @copy flags bits first second body output output' flag token =>
      obtain ⟨hle, hadded⟩ := length_of_copyToken token
      simp only [List.length_cons] at hbody hstart hgrown
      refine ⟨by dsimp only; omega, hstart.trans hle, ?_⟩
      dsimp only
      rcases Nat.lt_or_ge (output.length - start) 4096 with hbelow | habove
      · have hlongest := copy_below hbelow
        unfold lastPosition
        omega
      · have hlongest := copy_above habove
        omega

lemma Bounded.steps {maximum start : ℕ} {state state' : ChunkState} (h : Bounded start state)
    (hsteps : ReflTransGen (ExpandStep maximum start) state state') : Bounded start state' := by
  induction hsteps with
  | refl => exact h
  | tail _ hstep ih => exact ih.step hstep

/-- Every step uses up a byte, or a flag and a byte. -/
def ChunkState.left (state : ChunkState) : ℕ := 9 * state.body.length + state.bits

end Vba

end AVBox
