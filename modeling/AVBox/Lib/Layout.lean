import AVBox.Lib.Binary

/-!
# Pieces of binary data

Where in a byte string a piece of it stands (`At`), and what is read there.  An encoding that is put
together from pieces is read back piece by piece: `At.left` and `At.right` take it apart.
-/

namespace Binary

variable {data first rest piece : List UInt8} {offset : ℕ}

/-- The piece stands in the data, at the offset. -/
def At (data : List UInt8) (offset : ℕ) (piece : List UInt8) : Prop :=
  ∃ before after, data = before ++ piece ++ after ∧ before.length = offset

lemma At.self (data : List UInt8) : At data 0 data := ⟨[], [], by simp, rfl⟩

lemma At.stop_le (h : At data offset piece) : offset + piece.length ≤ data.length := by
  obtain ⟨before, after, rfl, rfl⟩ := h
  rw [List.length_append, List.length_append]
  omega

lemma At.slice_eq (h : At data offset piece) :
    slice data offset (offset + piece.length) = piece := by
  obtain ⟨before, after, rfl, rfl⟩ := h
  rw [slice, List.append_assoc, List.drop_left, Nat.add_sub_cancel_left, List.take_left]

lemma At.left (h : At data offset (first ++ rest)) : At data offset first := by
  obtain ⟨before, after, rfl, rfl⟩ := h
  exact ⟨before, rest ++ after, by simp, rfl⟩

lemma At.right (h : At data offset (first ++ rest)) : At data (offset + first.length) rest := by
  obtain ⟨before, after, rfl, rfl⟩ := h
  exact ⟨before ++ first, after, by simp, List.length_append⟩

lemma At.be32_eq {word : ℕ} (h : At data offset (beBytes word)) (hword : word < 2 ^ 32) :
    be32 data offset = word := by
  rw [be32, show slice data offset (offset + 4) = beBytes word from h.slice_eq, beNat_beBytes,
    Nat.mod_eq_of_lt hword]

lemma at_iff : At data offset piece ↔ offset + piece.length ≤ data.length ∧
    slice data offset (offset + piece.length) = piece := by
  constructor
  · exact fun h => ⟨h.stop_le, h.slice_eq⟩
  · rintro ⟨hle, hslice⟩
    rw [slice, Nat.add_sub_cancel_left] at hslice
    have hrest := List.take_append_drop piece.length (data.drop offset)
    rw [hslice] at hrest
    refine ⟨data.take offset, (data.drop offset).drop piece.length, ?_, ?_⟩
    · rw [List.append_assoc, hrest, List.take_append_drop]
    · rw [List.length_take]
      omega

instance : Decidable (At data offset piece) := decidable_of_iff _ at_iff.symm

lemma At.leNat_eq {width word : ℕ} (h : At data offset (leBytes width word))
    (hword : word < 256 ^ width) : leNat (slice data offset (offset + width)) = word := by
  have hslice := h.slice_eq
  rw [length_leBytes] at hslice
  rw [hslice, leNat_leBytes, Nat.mod_eq_of_lt hword]

lemma At.le16_eq {word : ℕ} (h : At data offset (leBytes 2 word)) (hword : word < 2 ^ 16) :
    le16 data offset = word := h.leNat_eq hword

lemma At.le32_eq {word : ℕ} (h : At data offset (leBytes 4 word)) (hword : word < 2 ^ 32) :
    le32 data offset = word := h.leNat_eq hword

/-- An entry of a table whose entries are of one size. -/
lemma At.entry {ι : Type} {items : List ι} {encode : ι → List UInt8} {size : ℕ}
    (h : At data offset (items.flatMap encode)) (hsize : ∀ item, (encode item).length = size)
    {index : ℕ} (hindex : index < items.length) :
    At data (offset + index * size) (encode items[index]) := by
  induction items generalizing offset index with
  | nil => cases hindex
  | cons item items ih =>
      rcases index with _ | index
      · rw [Nat.zero_mul, Nat.add_zero]
        exact h.left
      · have hrest := ih h.right (Nat.lt_of_succ_lt_succ hindex)
        rw [hsize, Nat.add_assoc, Nat.add_comm size, ← Nat.succ_mul] at hrest
        exact hrest

/-- Words that follow one another. -/
lemma At.words_eq {words : List ℕ} (h : At data offset (words.flatMap beBytes))
    (hwords : ∀ word ∈ words, word < 2 ^ 32) :
    ((List.range words.length).map fun i => be32 data (offset + i * 4)) = words := by
  induction words generalizing offset with
  | nil => rfl
  | cons word words ih =>
      obtain ⟨hword, hwords⟩ := List.forall_mem_cons.1 hwords
      have hrest := ih h.right hwords
      rw [List.length_cons, List.range_succ_eq_map, List.map_cons, List.map_map, Nat.zero_mul,
        Nat.add_zero, h.left.be32_eq hword]
      refine congrArg (word :: ·) (Eq.trans (List.map_congr_left fun i _ => ?_) hrest)
      rw [Function.comp_apply, length_beBytes]
      congr 1
      omega

/-- What is read of the first part of the data is read of all of it. -/
lemma be32_append (h : offset + 4 ≤ data.length) (rest : List UInt8) :
    be32 (data ++ rest) offset = be32 data offset := by
  rw [be32, be32, slice_append_left h]

end Binary
