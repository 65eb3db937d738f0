import AVBox.Analyzers.AdfDamage

/-!
# The checksum of the boot block

The words of an Amiga boot block are added with an end-around carry, which is addition modulo
`2 ^ 32 - 1` with two representations of zero.  The sum is the one of all ones exactly if the words
add up to a multiple of `2 ^ 32 - 1` and are not all zero.
-/

namespace AVBox

namespace StructuralValidator

open Binary

/-- The words of a boot block. -/
def bootWords (block : Bytes) : List ℕ := (List.range 256).map fun i => be32 block (4 * i)

/-- A step of the loop: the carry is added at the other end. -/
def carryAdd (total word : ℕ) : ℕ :=
  let sum := (total + word) % 2 ^ 32
  if sum < total then (sum + 1) % 2 ^ 32 else sum

/-- The sum of words with an end-around carry. -/
def carrySum (words : List ℕ) : ℕ := words.foldl carryAdd 0

/-- The block with another second word. -/
def withChecksum (block : Bytes) (word : ℕ) : Bytes :=
  block.take 4 ++ (beBytes word ++ block.drop 8)

/-- `_boot_checksum` of the tests. -/
def bootChecksum (block : Bytes) : Bytes :=
  withChecksum block (2 ^ 32 - 1 - carrySum (bootWords (withChecksum block 0)))

variable {block : Bytes}

lemma bootWords_lt : ∀ word ∈ bootWords block, word < 2 ^ 32 := by
  intro word hword
  obtain ⟨i, -, rfl⟩ := List.mem_map.1 hword
  exact be32_lt block (4 * i)

lemma amigaBootChecksum_iff (hlength : block.length = 1024) :
    amigaBootChecksum block = true ↔ carrySum (bootWords block) = 2 ^ 32 - 1 := by
  rw [amigaBootChecksum, if_neg (not_not.2 hlength), carrySum, bootWords, List.foldl_map]
  exact decide_eq_true_iff

/-! ## Carries -/

/-- The two representations of zero are kept apart. -/
lemma carryAdd_pos {total word : ℕ} (htotal : total < 2 ^ 32) (hword : word < 2 ^ 32) :
    0 < carryAdd total word ↔ 0 < total ∨ 0 < word := by
  simp only [carryAdd]
  split <;> omega

/-- The sum stays a word, and it is zero only if there was nothing to add. -/
lemma foldl_carryAdd_pos (words : List ℕ) (hwords : ∀ word ∈ words, word < 2 ^ 32) {total : ℕ}
    (htotal : total < 2 ^ 32) :
    words.foldl carryAdd total < 2 ^ 32 ∧
      (0 < words.foldl carryAdd total ↔ 0 < total ∨ 0 < words.sum) := by
  induction words generalizing total with
  | nil => exact ⟨htotal, (or_iff_left (Nat.lt_irrefl 0)).symm⟩
  | cons word words ih =>
      obtain ⟨hword, hwords⟩ := List.forall_mem_cons.1 hwords
      have hnext : carryAdd total word < 2 ^ 32 := (carry_add htotal hword).1
      obtain ⟨hfinal, hpos⟩ := ih hwords hnext
      refine ⟨hfinal, hpos.trans ?_⟩
      rw [carryAdd_pos htotal hword, List.sum_cons]
      omega

/-- The sum with carries is the residue of the sum, but `2 ^ 32 - 1` where the residue of a sum
that is not zero is. -/
lemma carrySum_spec {words : List ℕ} (hwords : ∀ word ∈ words, word < 2 ^ 32) :
    carrySum words < 2 ^ 32 ∧ carrySum words % (2 ^ 32 - 1) = words.sum % (2 ^ 32 - 1) ∧
      (0 < carrySum words ↔ 0 < words.sum) := by
  have hresidue : carrySum words % (2 ^ 32 - 1) = (0 + words.sum) % (2 ^ 32 - 1) :=
    foldl_carry words hwords (show 0 < 2 ^ 32 by decide)
  obtain ⟨hlt, hpos⟩ := foldl_carryAdd_pos words hwords (show 0 < 2 ^ 32 by decide)
  rw [Nat.zero_add] at hresidue
  exact ⟨hlt, hresidue, hpos.trans (or_iff_right (Nat.lt_irrefl 0))⟩

lemma carrySum_eq_iff {words : List ℕ} (hwords : ∀ word ∈ words, word < 2 ^ 32) :
    carrySum words = 2 ^ 32 - 1 ↔ 0 < words.sum ∧ 2 ^ 32 - 1 ∣ words.sum := by
  obtain ⟨hlt, hresidue, hpos⟩ := carrySum_spec hwords
  rw [← hpos, Nat.dvd_iff_mod_eq_zero, ← hresidue]
  omega

/-! ## The words and the bytes -/

lemma beNat_eq_zero_iff {bytes : List UInt8} : beNat bytes = 0 ↔ ∀ byte ∈ bytes, byte = 0 := by
  induction bytes with
  | nil => exact iff_of_true rfl fun byte hbyte => absurd hbyte List.not_mem_nil
  | cons byte bytes ih =>
      rw [beNat_cons, Nat.add_eq_zero_iff, ih, List.forall_mem_cons, Nat.mul_eq_zero,
        or_iff_left (Nat.pow_pos (by decide)).ne', ← UInt8.toNat_inj]
      rfl

/-- The words add up to zero only if all bytes are zero. -/
lemma sum_bootWords_pos (hlength : block.length = 1024) :
    0 < (bootWords block).sum ↔ ∃ byte ∈ block, byte ≠ 0 := by
  rw [Nat.pos_iff_ne_zero, Ne, ← not_iff_not, not_not, not_exists,
    List.sum_eq_zero_iff_forall_eq_nat]
  constructor
  · rintro hwords byte ⟨hbyte, hne⟩
    obtain ⟨place, hplace, rfl⟩ := List.getElem_of_mem hbyte
    -- the byte lies in the word whose number is a quarter of its place
    have hword : be32 block (4 * (place / 4)) = 0 :=
      hwords _ (List.mem_map_of_mem (List.mem_range.2 (by omega)))
    refine hne (beNat_eq_zero_iff.1 hword _ ?_)
    refine List.mem_take_iff_getElem.2 ⟨place % 4, ?_, ?_⟩
    · rw [List.length_drop]
      omega
    · rw [List.getElem_drop]
      congr 1
      omega
  · intro hzero word hword
    obtain ⟨i, -, rfl⟩ := List.mem_map.1 hword
    refine beNat_eq_zero_iff.2 fun byte hbyte => ?_
    by_contra hne
    exact hzero byte ⟨List.mem_of_mem_drop (List.mem_of_mem_take hbyte), hne⟩

/-- The first law of the checksum. -/
lemma bootChecksum_valid_iff (hlength : block.length = 1024) :
    amigaBootChecksum block = true ↔
      (∃ byte ∈ block, byte ≠ 0) ∧ 2 ^ 32 - 1 ∣ (bootWords block).sum := by
  rw [amigaBootChecksum_iff hlength, carrySum_eq_iff bootWords_lt, sum_bootWords_pos hlength]

/-! ## Storing the checksum -/

lemma length_withChecksum (hlength : block.length = 1024) (word : ℕ) :
    (withChecksum block word).length = 1024 := by
  rw [withChecksum, List.length_append, List.length_append, List.length_take, List.length_drop,
    length_beBytes]
  omega

lemma be32_withChecksum (hlength : block.length = 1024) {word : ℕ} (hword : word < 2 ^ 32) :
    be32 (withChecksum block word) (4 * 1) = word := by
  have htake : (block.take 4).length = 4 := by
    rw [List.length_take]
    omega
  rw [be32, withChecksum, slice_append_right (by omega), htake,
    slice_append_left (by rw [length_beBytes])]
  exact (beNat_beBytes word).trans (Nat.mod_eq_of_lt hword)

lemma be32_withChecksum_of_ne (hlength : block.length = 1024) {i : ℕ} (hi : i ≠ 1)
    (word word' : ℕ) :
    be32 (withChecksum block word) (4 * i) = be32 (withChecksum block word') (4 * i) := by
  have htake : (block.take 4).length = 4 := by
    rw [List.length_take]
    omega
  rcases Nat.lt_or_gt_of_ne hi with hlt | hgt
  · rw [be32, be32, withChecksum, withChecksum, slice_append_left (by omega),
      slice_append_left (by omega)]
  · have hbehind : ∀ word, slice (withChecksum block word) (4 * i) (4 * i + 4) =
        slice (block.drop 8) (4 * i - 4 - 4) (4 * i + 4 - 4 - 4) := by
      intro word
      have hword : (beBytes word).length ≤ 4 * i - 4 := by
        rw [length_beBytes]
        omega
      rw [withChecksum, slice_append_right (by omega), htake, slice_append_right hword,
        length_beBytes]
    rw [be32, be32, hbehind, hbehind]

/-- The stored word is added to the sum of the others. -/
lemma sum_withChecksum (hlength : block.length = 1024) {word : ℕ} (hword : word < 2 ^ 32) :
    (bootWords (withChecksum block word)).sum =
      (bootWords (withChecksum block 0)).sum + word := by
  have hothers : ∀ i, i ≠ 1 →
      be32 (withChecksum block word) (4 * i) = be32 (withChecksum block 0) (4 * i) :=
    fun i hi => be32_withChecksum_of_ne hlength hi word 0
  have hsum := Damaged.sum_range_of_single hothers 256
  rw [if_pos (by decide), be32_withChecksum hlength hword,
    be32_withChecksum hlength (show 0 < 2 ^ 32 by decide)] at hsum
  simp only [bootWords]
  omega

/-- The second law: the complement of the sum makes the block pass. -/
lemma bootChecksum_passes (hlength : block.length = 1024) :
    amigaBootChecksum (bootChecksum block) = true := by
  obtain ⟨hlt, hresidue, hpos⟩ := carrySum_spec (@bootWords_lt (withChecksum block 0))
  have hsum := sum_withChecksum hlength
    (show 2 ^ 32 - 1 - carrySum (bootWords (withChecksum block 0)) < 2 ^ 32 by omega)
  rw [bootChecksum, amigaBootChecksum_iff (length_withChecksum hlength _),
    carrySum_eq_iff bootWords_lt, hsum, Nat.dvd_iff_mod_eq_zero]
  omega

/-! ## The laws -/

/-- The checksum of a boot block is right exactly if the block is not all zero and its words add up
to a multiple of `2 ^ 32 - 1`.  So the complement of the sum of the other words makes a block pass,
and a change of one byte makes it fail. -/
theorem amigaBootChecksum_laws (block : Bytes) (hlength : block.length = 1024) :
    (amigaBootChecksum block = true ↔
        (∃ byte ∈ block, byte ≠ 0) ∧ 2 ^ 32 - 1 ∣ (bootWords block).sum) ∧
      amigaBootChecksum (bootChecksum block) = true ∧
      (amigaBootChecksum block = true → ∀ place < 1024, ∀ byte ≠ block.getD place 0,
        amigaBootChecksum (block.set place byte) = false) := by
  refine ⟨bootChecksum_valid_iff hlength, bootChecksum_passes hlength, ?_⟩
  intro hvalid place hplace byte hbyte
  have hdamaged : Damaged place block (block.set place byte) :=
    .set (by omega) hbyte
  exact Bool.eq_false_iff.2 (bootChecksum_damaged hdamaged hplace hlength.ge hvalid)

/-- The boot block of a disk that does not boot. -/
theorem amigaBootChecksum_laws_dos :
    amigaBootChecksum (bootChecksum (ascii "DOS" ++ List.replicate 1021 0)) = true :=
  (amigaBootChecksum_laws (ascii "DOS" ++ List.replicate 1021 0)
    (by rw [List.length_append, List.length_replicate]; decide)).2.1

end StructuralValidator

end AVBox
