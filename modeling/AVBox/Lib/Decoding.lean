import Mathlib.Algebra.Order.Ring.Nat
import Mathlib.Data.List.Basic

/-!
# Lenient decoding

A decoder reads one character off the front of its input, or finds that none begins there and drops
some of it.  `lenient` goes on after what was dropped, `strict` gives up.

Where a character stands in the input is a `Glyph`.  What is proved here is when a run of
consecutive glyphs of a lenient decoding is also the strict decoding of the range it spans: exactly
when nothing was dropped inside the range (`strict_range_iff`).
-/

/-- A decoder of characters `α` from units `β`. -/
structure Decoder (β α : Type) where
  /-- The character at the front, and the number of units it takes. -/
  read : List β → Option (α × ℕ)
  /-- How many units are dropped beside the first one when there is no character at the front. -/
  further : List β → ℕ
  read_pos : ∀ {units : List β} {c : α} {size : ℕ},
    read units = some (c, size) → 0 < size ∧ size ≤ units.length
  /-- Whether a character is at the front depends on its own units only. -/
  read_front : ∀ {units : List β} {c : α} {size : ℕ}, read units = some (c, size) →
    ∀ rest, read (units.take size ++ rest) = some (c, size)

namespace Decoder

variable {α β : Type} (d : Decoder β α)

/-- A character of a decoding, and the range of the input it was read from. -/
structure Glyph (α : Type) where
  char : α
  start : ℕ
  stop : ℕ
  deriving DecidableEq

/-- `lenientFrom`, on as many characters as the fuel allows. -/
def lenientFrom : ℕ → List β → List α
  | 0, _ => []
  | _ + 1, [] => []
  | fuel + 1, unit :: units =>
      match d.read (unit :: units) with
      | some (c, size) => c :: lenientFrom fuel ((unit :: units).drop size)
      | none => lenientFrom fuel (units.drop (d.further (unit :: units)))

/-- `units.decode(errors="ignore")`. -/
def lenient (units : List β) : List α := d.lenientFrom units.length units

def strictFrom : ℕ → List β → Option (List α)
  | _, [] => some []
  | 0, _ :: _ => none
  | fuel + 1, unit :: units => do
      let (c, size) ← d.read (unit :: units)
      let text ← strictFrom fuel ((unit :: units).drop size)
      return c :: text

/-- `units.decode()`, where `none` is an error. -/
def strict (units : List β) : Option (List α) := d.strictFrom units.length units

def glyphsFrom : ℕ → ℕ → List β → List (Glyph α)
  | 0, _, _ => []
  | _ + 1, _, [] => []
  | fuel + 1, start, unit :: units =>
      match d.read (unit :: units) with
      | some (c, size) =>
          ⟨c, start, start + size⟩ :: glyphsFrom fuel (start + size) ((unit :: units).drop size)
      | none =>
          let dropped := d.further (unit :: units)
          glyphsFrom fuel (start + 1 + dropped) (units.drop dropped)

/-- The characters of the lenient decoding, with their places. -/
def glyphs (units : List β) : List (Glyph α) := d.glyphsFrom units.length 0 units

def gapsFrom : ℕ → ℕ → List β → List ℕ
  | 0, _, _ => []
  | _ + 1, _, [] => []
  | fuel + 1, start, unit :: units =>
      match d.read (unit :: units) with
      | some (_, size) => gapsFrom fuel (start + size) ((unit :: units).drop size)
      | none =>
          let dropped := d.further (unit :: units)
          start :: gapsFrom fuel (start + 1 + dropped) (units.drop dropped)

/-- The places where units were dropped. -/
def gaps (units : List β) : List ℕ := d.gapsFrom units.length 0 units

/-! ## Equations -/

variable {d}

lemma length_drop_lt {units : List β} {c : α} {size : ℕ} (h : d.read units = some (c, size)) :
    (units.drop size).length < units.length := by
  have hsize := d.read_pos h
  rw [List.length_drop]
  omega

lemma map_glyphsFrom (fuel start : ℕ) (units : List β) :
    (d.glyphsFrom fuel start units).map Glyph.char = d.lenientFrom fuel units := by
  induction fuel generalizing start units with
  | zero => rfl
  | succ fuel ih =>
      cases units with
      | nil => rfl
      | cons unit units =>
          simp only [glyphsFrom, lenientFrom]
          cases d.read (unit :: units) with
          | none => exact ih _ _
          | some front => simp only [List.map_cons, ih]

/-- The glyphs are the characters of the lenient decoding. -/
theorem map_glyphs (units : List β) : (d.glyphs units).map Glyph.char = d.lenient units :=
  map_glyphsFrom _ _ _

/-- More fuel than units changes nothing. -/
lemma strictFrom_fuel {fuel fuel' : ℕ} {units : List β} (h : units.length ≤ fuel)
    (h' : units.length ≤ fuel') : d.strictFrom fuel units = d.strictFrom fuel' units := by
  induction fuel generalizing fuel' units with
  | zero =>
      obtain rfl := List.length_eq_zero_iff.1 (Nat.le_zero.1 h)
      cases fuel' <;> rfl
  | succ fuel ih =>
      cases units with
      | nil => cases fuel' <;> rfl
      | cons unit units =>
          cases fuel' with
          | zero => simp at h'
          | succ fuel' =>
              simp only [strictFrom]
              cases hread : d.read (unit :: units) with
              | none => rfl
              | some front =>
                  have hlt := length_drop_lt hread
                  simp only [List.length_cons] at hlt h h'
                  simp only [Option.bind_eq_bind, Option.bind_some]
                  rw [@ih fuel' (List.drop front.2 (unit :: units)) (by omega) (by omega)]

@[simp] lemma strict_nil : d.strict [] = some [] := rfl

lemma strict_of_read {units : List β} {c : α} {size : ℕ} (h : d.read units = some (c, size)) :
    d.strict units = (d.strict (units.drop size)).map (c :: ·) := by
  have hsize := d.read_pos h
  have hlt := length_drop_lt h
  cases units with
  | nil =>
      rw [List.length_nil] at hsize
      omega
  | cons unit units =>
      rw [strict, List.length_cons, strictFrom]
      simp only [h, Option.bind_eq_bind, Option.bind_some]
      rw [List.length_cons] at hlt
      rw [strictFrom_fuel (by omega) le_rfl, ← strict]
      cases d.strict ((unit :: units).drop size) <;> rfl

lemma strict_of_none {units : List β} (hunits : units ≠ []) (h : d.read units = none) :
    d.strict units = none := by
  obtain ⟨unit, units, rfl⟩ := List.exists_cons_of_ne_nil hunits
  simp [strict, strictFrom, h]

/-! ## Places -/

lemma le_of_mem_gapsFrom {fuel start : ℕ} {units : List β} {place : ℕ}
    (h : place ∈ d.gapsFrom fuel start units) : start ≤ place := by
  induction fuel generalizing start units with
  | zero => simp [gapsFrom] at h
  | succ fuel ih =>
      cases units with
      | nil => simp [gapsFrom] at h
      | cons unit units =>
          simp only [gapsFrom] at h
          cases hread : d.read (unit :: units) with
          | some front =>
              rw [hread] at h
              exact (Nat.le_add_right _ _).trans (ih h)
          | none =>
              simp only [hread, List.mem_cons] at h
              rcases h with rfl | h
              · exact le_rfl
              · have hle := ih h
                omega

lemma bounds_of_mem_glyphsFrom {fuel start : ℕ} {units : List β} {glyph : Glyph α}
    (h : glyph ∈ d.glyphsFrom fuel start units) :
    start ≤ glyph.start ∧ glyph.start < glyph.stop := by
  induction fuel generalizing start units with
  | zero => simp [glyphsFrom] at h
  | succ fuel ih =>
      cases units with
      | nil => simp [glyphsFrom] at h
      | cons unit units =>
          simp only [glyphsFrom] at h
          cases hread : d.read (unit :: units) with
          | some front =>
              have hsize := d.read_pos hread
              simp only [hread, List.mem_cons] at h
              rcases h with rfl | h
              · exact ⟨le_rfl, by simp only; omega⟩
              · have hle := ih h
                omega
          | none =>
              rw [hread] at h
              have hle := ih h
              omega

lemma stop_le_of_mem_glyphsFrom {fuel start : ℕ} {units : List β} {glyph : Glyph α}
    (h : glyph ∈ d.glyphsFrom fuel start units) : glyph.stop ≤ start + units.length := by
  induction fuel generalizing start units with
  | zero => simp [glyphsFrom] at h
  | succ fuel ih =>
      cases units with
      | nil => simp [glyphsFrom] at h
      | cons unit units =>
          simp only [glyphsFrom] at h
          cases hread : d.read (unit :: units) with
          | some front =>
              have hsize := (d.read_pos hread).2
              simp only [hread, List.mem_cons] at h
              rcases h with rfl | h
              · exact Nat.add_le_add_left hsize _
              · have hle := ih h
                rw [List.length_drop] at hle
                omega
          | none =>
              rw [hread] at h
              by_cases hunits : (units.drop (d.further (unit :: units))) = []
              · simp only [hunits] at h
                cases fuel <;> simp [glyphsFrom] at h
              · have hle := ih h
                rw [List.drop_eq_nil_iff] at hunits
                rw [List.length_drop] at hle
                rw [List.length_cons]
                omega

/-- The first glyph of a decoding that begins where the input does. -/
lemma read_of_glyphsFrom {fuel start : ℕ} {units : List β} {glyph : Glyph α}
    {rest : List (Glyph α)} (h : d.glyphsFrom fuel start units = glyph :: rest)
    (hstart : glyph.start = start) :
    ∃ fuel' size, fuel = fuel' + 1 ∧ d.read units = some (glyph.char, size) ∧
      glyph.stop = start + size ∧ d.glyphsFrom fuel' (start + size) (units.drop size) = rest ∧
      d.gapsFrom fuel start units = d.gapsFrom fuel' (start + size) (units.drop size) := by
  cases fuel with
  | zero => simp [glyphsFrom] at h
  | succ fuel =>
      cases units with
      | nil => simp [glyphsFrom] at h
      | cons unit units =>
          simp only [glyphsFrom] at h
          cases hread : d.read (unit :: units) with
          | some front =>
              rw [hread] at h
              obtain ⟨rfl, hrest⟩ := List.cons.inj h
              exact ⟨fuel, front.2, rfl, rfl, rfl, hrest, by simp [gapsFrom, hread]⟩
          | none =>
              rw [hread] at h
              have hmem : glyph ∈ d.glyphsFrom fuel (start + 1 + d.further (unit :: units))
                  (units.drop (d.further (unit :: units))) := by
                simp only at h
                rw [h]
                exact List.mem_cons_self
              have hle := bounds_of_mem_glyphsFrom hmem
              omega

/-- When the first glyph begins later, something was dropped at the front. -/
lemma gap_of_glyphsFrom {fuel start : ℕ} {units : List β} {glyph : Glyph α}
    {rest : List (Glyph α)} (h : d.glyphsFrom fuel start units = glyph :: rest)
    (hstart : glyph.start ≠ start) :
    d.read units = none ∧ units ≠ [] ∧ start ∈ d.gapsFrom fuel start units := by
  cases fuel with
  | zero => simp [glyphsFrom] at h
  | succ fuel =>
      cases units with
      | nil => simp [glyphsFrom] at h
      | cons unit units =>
          simp only [glyphsFrom] at h
          cases hread : d.read (unit :: units) with
          | some front =>
              rw [hread] at h
              obtain ⟨rfl, -⟩ := List.cons.inj h
              exact absurd rfl hstart
          | none => exact ⟨rfl, List.cons_ne_nil _ _, by simp [gapsFrom, hread]⟩

/-- A front that is no character does not become one by being cut off. -/
lemma read_take_none {units : List β} (h : d.read units = none) (count : ℕ) :
    d.read (units.take count) = none := by
  by_contra hread
  obtain ⟨front, hread⟩ := Option.ne_none_iff_exists'.1 hread
  have hsize := (d.read_pos hread).2
  rw [List.length_take] at hsize
  have hfront := d.read_front hread (units.drop front.2)
  rw [List.take_take, Nat.min_eq_left (by omega), List.take_append_drop, h] at hfront
  cases hfront

/-- Where a later glyph begins, the decoding begins anew. -/
lemma glyphsFrom_at {fuel start : ℕ} {units : List β} {before rest : List (Glyph α)}
    {glyph : Glyph α} (hfuel : units.length ≤ fuel)
    (h : d.glyphsFrom fuel start units = before ++ glyph :: rest) :
    ∃ fuel' skipped, glyph.start = start + skipped ∧ (units.drop skipped).length ≤ fuel' ∧
      d.glyphsFrom fuel' glyph.start (units.drop skipped) = glyph :: rest ∧
      ∀ place, glyph.start < place → (place ∈ d.gapsFrom fuel start units ↔
        place ∈ d.gapsFrom fuel' glyph.start (units.drop skipped)) := by
  induction fuel generalizing start units before with
  | zero => simp [glyphsFrom] at h
  | succ fuel ih =>
      cases units with
      | nil => simp [glyphsFrom] at h
      | cons unit units =>
          cases hread : d.read (unit :: units) with
          | some front =>
              have hlt := length_drop_lt hread
              rw [List.length_cons] at hlt hfuel
              simp only [glyphsFrom, hread] at h
              cases before with
              | nil =>
                  obtain ⟨rfl, hrest⟩ := List.cons.inj h
                  exact ⟨fuel + 1, 0, rfl, hfuel, by simp [glyphsFrom, hread, hrest],
                    fun _ _ => Iff.rfl⟩
              | cons first before =>
                  obtain ⟨-, hrest⟩ := List.cons.inj h
                  obtain ⟨fuel', skipped, hstart, hlength, hglyphs, hgaps⟩ :=
                    ih (by omega) hrest
                  rw [List.drop_drop] at hlength hglyphs hgaps
                  refine ⟨fuel', front.2 + skipped, by omega, hlength, hglyphs, ?_⟩
                  intro place hplace
                  rw [← hgaps place hplace]
                  simp [gapsFrom, hread]
          | none =>
              rw [List.length_cons] at hfuel
              simp only [glyphsFrom, hread] at h
              obtain ⟨fuel', skipped, hstart, hlength, hglyphs, hgaps⟩ :=
                ih (by rw [List.length_drop]; omega) h
              rw [List.drop_drop] at hlength hglyphs hgaps
              refine ⟨fuel', d.further (unit :: units) + skipped + 1, by omega, hlength, hglyphs,
                ?_⟩
              intro place hplace
              rw [List.drop_succ_cons, ← hgaps place hplace]
              simp only [gapsFrom, hread, List.mem_cons]
              constructor
              · rintro (rfl | h)
                · omega
                · exact h
              · exact Or.inr

/-! ## Ranges -/

/-- A range that begins with a glyph and ends with one is decoded strictly exactly when nothing in
it was dropped. -/
lemma strict_front_iff {fuel start : ℕ} {units : List β} {first : Glyph α}
    {run after : List (Glyph α)} (hfuel : units.length ≤ fuel)
    (h : d.glyphsFrom fuel start units = first :: run ++ after) (hstart : first.start = start) :
    d.strict (units.take ((run.getLastD first).stop - start)) =
        some ((first :: run).map Glyph.char) ↔
      ∀ place ∈ d.gapsFrom fuel start units, ¬place < (run.getLastD first).stop := by
  induction run generalizing fuel start units first with
  | nil =>
      obtain ⟨fuel', size, rfl, hread, hstop, -, hgaps⟩ := read_of_glyphsFrom h hstart
      have hfront := d.read_front hread []
      rw [List.append_nil] at hfront
      rw [List.getLastD_nil, hstop, Nat.add_sub_cancel_left, strict_of_read hfront, hgaps]
      refine iff_of_true ?_ fun place hplace => not_lt.2 (le_of_mem_gapsFrom hplace)
      rw [List.drop_eq_nil_of_le (List.length_take_le _ _)]
      rfl
  | cons second run ih =>
      obtain ⟨fuel', size, rfl, hread, hstop, hrest, hgaps⟩ := read_of_glyphsFrom h hstart
      have hlt := length_drop_lt hread
      have hlast : start + size < (run.getLastD second).stop := by
        have hbounds := @bounds_of_mem_glyphsFrom _ _ d _ _ _ (run.getLastD second) <| by
          rw [hrest]
          exact List.mem_append_left _ List.getLastD_mem_cons
        omega
      rw [List.getLastD_cons, hgaps]
      generalize hstops : (run.getLastD second).stop = stop at hlast
      have hsplit : units.take (stop - start) =
          units.take size ++ (units.drop size).take (stop - (start + size)) := by
        rw [← List.take_add]
        congr 1
        omega
      have hfront := d.read_front hread ((units.drop size).take (stop - (start + size)))
      have hdrop : (units.take size ++ (units.drop size).take (stop - (start + size))).drop size =
          (units.drop size).take (stop - (start + size)) := by
        rw [List.drop_append_of_le_length (by simp [(d.read_pos hread).2]), List.drop_eq_nil_of_le
          (List.length_take_le _ _), List.nil_append]
      rw [hsplit, strict_of_read hfront, hdrop]
      by_cases hnext : second.start = start + size
      · have hrec := ih (by omega) hrest hnext
        rw [hstops] at hrec
        rw [← hrec]
        simp
      · obtain ⟨hnone, hunits, hgap⟩ := gap_of_glyphsFrom hrest hnext
        have htake : (units.drop size).take (stop - (start + size)) ≠ [] := by
          rw [Ne, List.take_eq_nil_iff]
          exact not_or.2 ⟨by omega, hunits⟩
        refine iff_of_false ?_ fun hnot => hnot _ hgap hlast
        rw [strict_of_none htake (read_take_none hnone _)]
        simp

/-- Where a run of glyphs begins. -/
def begins (run : List (Glyph α)) : ℕ := (run.head?.map Glyph.start).getD 0

/-- Where a run of glyphs ends. -/
def ends (run : List (Glyph α)) : ℕ := (run.getLast?.map Glyph.stop).getD 0

lemma ends_le {units : List β} {run : List (Glyph α)} (h : ∀ glyph ∈ run, glyph ∈ d.glyphs units) :
    ends run ≤ units.length := by
  rw [ends]
  cases hlast : run.getLast? with
  | none => exact Nat.zero_le _
  | some glyph =>
      have hstop := stop_le_of_mem_glyphsFrom (h glyph (List.mem_of_getLast? hlast))
      rwa [Nat.zero_add] at hstop

/-- The range that consecutive glyphs span is decoded strictly, and to the same text, exactly when
nothing inside it was dropped. -/
theorem strict_range_iff {units : List β} {before run after : List (Glyph α)}
    (h : d.glyphs units = before ++ run ++ after) (hrun : run ≠ []) :
    d.strict ((units.drop (begins run)).take (ends run - begins run)) =
        some (run.map Glyph.char) ↔
      ∀ place ∈ d.gaps units, ¬(begins run < place ∧ place < ends run) := by
  obtain ⟨first, run, rfl⟩ := List.exists_cons_of_ne_nil hrun
  have hends : ends (first :: run) = (run.getLastD first).stop := by
    rw [ends, List.getLast?_cons, List.getLastD_eq_getLast?]
    rfl
  rw [List.append_assoc, List.cons_append] at h
  obtain ⟨fuel, skipped, hstart, hlength, hglyphs, hgaps⟩ := glyphsFrom_at le_rfl h
  rw [Nat.zero_add] at hstart
  rw [← hstart] at hlength hglyphs hgaps
  rw [hends, show begins (first :: run) = first.start from rfl,
    strict_front_iff hlength hglyphs rfl]
  constructor
  · rintro hnot place hplace ⟨hafter, hbefore⟩
    exact hnot place ((hgaps place hafter).1 hplace) hbefore
  · intro hnot place hplace hbefore
    obtain ⟨fuel', size, rfl, hread, -, -, hrest⟩ := read_of_glyphsFrom hglyphs rfl
    have hsize := d.read_pos hread
    have hle := hplace
    rw [hrest] at hle
    have hafter : first.start < place := by
      have := le_of_mem_gapsFrom hle
      omega
    exact hnot place ((hgaps place hafter).2 hplace) ⟨hafter, hbefore⟩

end Decoder
