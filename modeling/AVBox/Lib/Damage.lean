import AVBox.Lib.Binary
import Mathlib.Tactic.IntervalCases
import Mathlib.Tactic.NormNum
import Mathlib.Tactic.Ring

/-!
# Damage to one byte

Two byte strings that differ in one byte, and the checksums that tell them apart: the sum of the
bytes, the sum of the 32-bit words, and every checksum that a byte changes injectively.
-/

namespace Binary

/-- The second byte string is the first with another byte at the place. -/
def Damaged (place : ℕ) (data data' : List UInt8) : Prop :=
  ∃ before old new after, data = before ++ old :: after ∧ data' = before ++ new :: after ∧
    before.length = place ∧ old ≠ new

namespace Damaged

variable {place : ℕ} {data data' : List UInt8}

lemma set {byte : UInt8} (hplace : place < data.length) (hbyte : byte ≠ data.getD place 0) :
    Damaged place data (data.set place byte) := by
  refine ⟨data.take place, data[place], byte, data.drop (place + 1), ?_, ?_, ?_, ?_⟩
  · rw [List.getElem_cons_drop, List.take_append_drop]
  · rw [List.set_eq_take_append_cons_drop, if_pos hplace]
  · rw [List.length_take, Nat.min_eq_left (Nat.le_of_lt hplace)]
  · rw [List.getD_eq_getElem?_getD, List.getElem?_eq_getElem hplace, Option.getD_some] at hbyte
    exact hbyte.symm

lemma length_eq (h : Damaged place data data') : data'.length = data.length := by
  obtain ⟨before, old, new, after, rfl, rfl, -, -⟩ := h
  simp only [List.length_append, List.length_cons]

lemma lt_length (h : Damaged place data data') : place < data.length := by
  obtain ⟨before, old, new, after, rfl, rfl, rfl, -⟩ := h
  simp only [List.length_append, List.length_cons]
  omega

lemma ne (h : Damaged place data data') : data ≠ data' := by
  obtain ⟨before, old, new, after, rfl, rfl, -, hne⟩ := h
  intro heq
  exact hne (List.cons.inj (List.append_cancel_left heq)).1

/-- The damage in the rest of the data. -/
lemma drop (h : Damaged place data data') {count : ℕ} (hcount : count ≤ place) :
    Damaged (place - count) (data.drop count) (data'.drop count) := by
  obtain ⟨before, old, new, after, rfl, rfl, rfl, hne⟩ := h
  refine ⟨before.drop count, old, new, after, ?_, ?_, List.length_drop, hne⟩
  · rw [List.drop_append_of_le_length hcount]
  · rw [List.drop_append_of_le_length hcount]

/-- The damage in the first bytes. -/
lemma take (h : Damaged place data data') {count : ℕ} (hcount : place < count) :
    Damaged place (data.take count) (data'.take count) := by
  obtain ⟨before, old, new, after, rfl, rfl, rfl, hne⟩ := h
  refine ⟨before, old, new, after.take (count - before.length - 1), ?_, ?_, rfl, hne⟩
  all_goals
    rw [List.take_append, List.take_of_length_le (by omega),
      show count - before.length = count - before.length - 1 + 1 by omega, List.take_succ_cons]
    rfl

/-- What lies before the damage. -/
lemma take_eq (h : Damaged place data data') {count : ℕ} (hcount : count ≤ place) :
    data'.take count = data.take count := by
  obtain ⟨before, old, new, after, rfl, rfl, rfl, -⟩ := h
  rw [List.take_append_of_le_length hcount, List.take_append_of_le_length hcount]

/-- What lies behind the damage. -/
lemma drop_eq (h : Damaged place data data') {count : ℕ} (hcount : place < count) :
    data'.drop count = data.drop count := by
  obtain ⟨before, old, new, after, rfl, rfl, rfl, -⟩ := h
  rw [List.drop_append, List.drop_append, List.drop_eq_nil_of_le (by omega),
    show count - before.length = count - before.length - 1 + 1 by omega]
  rfl

/-- A slice with the damage. -/
lemma slice (h : Damaged place data data') {start stop : ℕ} (hstart : start ≤ place)
    (hstop : place < stop) :
    Damaged (place - start) (slice data start stop) (slice data' start stop) :=
  (h.drop hstart).take (by omega)

/-- A slice without the damage. -/
lemma slice_eq (h : Damaged place data data') {start stop : ℕ}
    (hplace : stop ≤ place ∨ place < start) :
    Binary.slice data' start stop = Binary.slice data start stop := by
  simp only [Binary.slice]
  rcases hplace with hstop | hstart
  · by_cases hle : start ≤ place
    · exact (h.drop hle).take_eq (by omega)
    · rw [h.drop_eq (by omega)]
  · rw [h.drop_eq hstart]

lemma append (h : Damaged place data data') (before after : List UInt8) :
    Damaged (before.length + place) (before ++ data ++ after) (before ++ data' ++ after) := by
  obtain ⟨first, old, new, rest, rfl, rfl, rfl, hne⟩ := h
  exact ⟨before ++ first, old, new, rest ++ after, by simp, by simp, List.length_append, hne⟩

/-- Damage to one block of many. -/
lemma flatMap_range {block block' : ℕ → List UInt8} {size count index : ℕ}
    (hsize : ∀ i, (block i).length = size) (hindex : index < count)
    (hsame : ∀ i, i ≠ index → block' i = block i) (h : Damaged place (block index) (block' index)) :
    Damaged (index * size + place) ((List.range count).flatMap block)
      ((List.range count).flatMap block') := by
  obtain ⟨rest, rfl⟩ : ∃ rest, count = index + (1 + rest) := ⟨count - index - 1, by omega⟩
  have hblocks : ∀ b : ℕ → List UInt8, (List.range (index + (1 + rest))).flatMap b =
      (List.range index).flatMap b ++ b index ++
        (List.range rest).flatMap fun i => b (index + (1 + i)) := by
    intro b
    rw [List.range_add, List.range_add, List.flatMap_append, List.map_append, List.flatMap_append,
      List.flatMap_map, List.map_map, List.flatMap_map, List.append_assoc]
    simp
  have hbefore : (List.range index).flatMap block' = (List.range index).flatMap block := by
    refine List.flatMap_congr fun i hi => hsame i ?_
    rw [List.mem_range] at hi
    omega
  have hafter : (fun i => block' (index + (1 + i))) = fun i => block (index + (1 + i)) :=
    funext fun i => hsame _ (by omega)
  have hlength : ((List.range index).flatMap block).length = index * size :=
    length_flatMap_range hsize
  rw [hblocks block, hblocks block', hbefore, hafter, ← hlength]
  exact h.append _ _

/-! ## Sums -/

/-- The sum of the bytes tells. -/
theorem sum_ne (h : Damaged place data data') :
    (data'.map UInt8.toNat).sum % 256 ≠ (data.map UInt8.toNat).sum % 256 := by
  obtain ⟨before, old, new, after, rfl, rfl, -, hne⟩ := h
  simp only [List.map_append, List.map_cons, List.sum_append, List.sum_cons]
  have hold := old.toNat_lt
  have hnew := new.toNat_lt
  have hbytes : old.toNat ≠ new.toNat := fun heq => hne (UInt8.toNat_inj.1 heq)
  omega

/-- Sums of which one summand differs. -/
lemma sum_range_of_single {f g : ℕ → ℕ} {index : ℕ} (hsame : ∀ i, i ≠ index → f i = g i)
    (count : ℕ) : (((List.range count).map f).sum : ℤ) =
      ((List.range count).map g).sum + if index < count then (f index : ℤ) - g index else 0 := by
  induction count with
  | zero => rfl
  | succ count ih =>
      rw [List.range_succ, List.map_append, List.map_append, List.sum_append, List.sum_append,
        List.map_singleton, List.map_singleton, List.sum_singleton, List.sum_singleton,
        Nat.cast_add, Nat.cast_add, ih]
      by_cases heq : index = count
      · subst heq
        rw [if_neg (Nat.lt_irrefl _), if_pos (Nat.lt_succ_self _)]
        omega
      · rw [hsame count (Ne.symm heq)]
        by_cases hlt : index < count
        · rw [if_pos hlt, if_pos (Nat.lt_succ_of_lt hlt)]
          omega
        · rw [if_neg hlt, if_neg (by omega)]
          omega

/-- A difference that neither `2 ^ 32` nor `2 ^ 32 - 1` divides. -/
def Small (d : ℤ) : Prop := d ≠ 0 ∧ -(2 ^ 32 - 1) < d ∧ d < 2 ^ 32 - 1

/-- A damaged 32-bit word differs by a byte, moved to its place. -/
lemma beNat_small (h : Damaged place data data') (hlength : data.length = 4) :
    Small ((beNat data' : ℤ) - beNat data) := by
  obtain ⟨before, old, new, after, rfl, rfl, -, hne⟩ := h
  have hdiff : (beNat (before ++ new :: after) : ℤ) - beNat (before ++ old :: after) =
      ((new.toNat : ℤ) - old.toNat) * 256 ^ after.length := by
    rw [beNat_append, beNat_append, beNat_cons, beNat_cons]
    simp only [List.length_cons]
    push_cast
    ring
  have hafter : after.length ≤ 3 := by
    simp only [List.length_append, List.length_cons] at hlength
    omega
  have hold := old.toNat_lt
  have hnew := new.toNat_lt
  have hbytes : old.toNat ≠ new.toNat := fun heq => hne (UInt8.toNat_inj.1 heq)
  rw [hdiff, Small]
  generalize hcount : after.length = count at hafter
  interval_cases count <;> norm_num <;> omega

/-- Nor does the sum of the words differ by a multiple of either. -/
theorem sum_be32 (h : Damaged place data data') {count : ℕ} (hplace : place < 4 * count)
    (hlength : 4 * count ≤ data.length) :
    Small ((((List.range count).map fun i => be32 data' (4 * i)).sum : ℤ) -
      ((List.range count).map fun i => be32 data (4 * i)).sum) := by
  have hword : Small ((be32 data' (4 * (place / 4)) : ℤ) - be32 data (4 * (place / 4))) := by
    refine (h.slice (by omega) (by omega)).beNat_small ?_
    exact length_slice_of_le (by omega)
  have hsame : ∀ i, i ≠ place / 4 → be32 data' (4 * i) = be32 data (4 * i) := by
    intro i hi
    rw [be32, be32, h.slice_eq (by omega)]
  rw [sum_range_of_single hsame count, if_pos (by omega), add_sub_cancel_left]
  exact hword

/-! ## Checksums that are computed byte by byte -/

/-- A checksum tells if each byte, and each state of the checksum, is changed into a different
one. -/
theorem foldl_ne (h : Damaged place data data') {σ : Type} {step : σ → UInt8 → σ} {I : σ → Prop}
    (hstep : ∀ s byte, I s → I (step s byte))
    (hstate : ∀ s s' byte, I s → I s' → step s byte = step s' byte → s = s')
    (hbyte : ∀ s byte byte', I s → step s byte = step s byte' → byte = byte') {start : σ}
    (hstart : I start) : data'.foldl step start ≠ data.foldl step start := by
  obtain ⟨before, old, new, after, rfl, rfl, -, hne⟩ := h
  have hinvariant : ∀ (bytes : List UInt8) s, I s → I (bytes.foldl step s) := by
    intro bytes
    induction bytes with
    | nil => exact fun s hs => hs
    | cons byte bytes ih => exact fun s hs => ih _ (hstep s byte hs)
  have hinjective : ∀ (bytes : List UInt8) s s', I s → I s' →
      bytes.foldl step s = bytes.foldl step s' → s = s' := by
    intro bytes
    induction bytes with
    | nil => exact fun s s' _ _ heq => heq
    | cons byte bytes ih =>
        intro s s' hs hs' heq
        exact hstate s s' byte hs hs' (ih _ _ (hstep s byte hs) (hstep s' byte hs') heq)
  rw [List.foldl_append, List.foldl_append, List.foldl_cons, List.foldl_cons]
  intro heq
  have hbefore := hinvariant before start hstart
  exact hne (hbyte _ old new hbefore
    (hinjective after _ _ (hstep _ _ hbefore) (hstep _ _ hbefore) heq.symm))

end Damaged

end Binary
