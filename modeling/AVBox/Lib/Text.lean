import Mathlib.Data.List.Basic

/-!
# Words, greedy repetitions and digits

Texts over any alphabet.

* `words` splits a text at the characters of a kind, and takes no empty word.
* `greedy` is a repetition of a backtracking pattern: it takes as many characters as it can, and
  fewer where what follows does not match (`greedy_eq_some_iff`).
* The decimal digits of a number are read back as the number (`foldl_toDigits`).
-/

namespace Text

variable {α β : Type*}

/-! ## Words -/

section Words

variable (blank : α → Bool)

/-- The words of a text, given the beginning of the first one. -/
def wordsFrom : List α → List α → List (List α)
  | word, [] => if word.isEmpty then [] else [word]
  | word, c :: rest =>
      if blank c then if word.isEmpty then wordsFrom [] rest else word :: wordsFrom [] rest
      else wordsFrom (word ++ [c]) rest

def words (text : List α) : List (List α) := wordsFrom blank [] text

variable {blank}

lemma wordsFrom_append_blank {c : α} (hc : blank c) (word first rest : List α) :
    wordsFrom blank word (first ++ c :: rest) =
      wordsFrom blank word first ++ words blank rest := by
  induction first generalizing word with
  | nil =>
      rw [List.nil_append, wordsFrom, wordsFrom, if_pos hc]
      split <;> rfl
  | cons d first ih =>
      rw [List.cons_append, wordsFrom, wordsFrom]
      split
      · split
        · exact ih []
        · rw [ih [], List.cons_append]
      · exact ih (word ++ [d])

lemma words_append_blank {c : α} (hc : blank c) (first rest : List α) :
    words blank (first ++ c :: rest) = words blank first ++ words blank rest :=
  wordsFrom_append_blank hc [] first rest

lemma wordsFrom_solid {word text : List α} (h : ∀ c ∈ text, blank c = false)
    (hne : word ++ text ≠ []) : wordsFrom blank word text = [word ++ text] := by
  induction text generalizing word with
  | nil =>
      rw [List.append_nil] at hne ⊢
      rw [wordsFrom, if_neg (by simpa using hne)]
  | cons c text ih =>
      obtain ⟨hc, htext⟩ := List.forall_mem_cons.1 h
      rw [wordsFrom, if_neg (by simp [hc]), ih htext (by simp), List.append_assoc]
      rfl

/-- A text without blanks is one word. -/
lemma words_solid {text : List α} (h : ∀ c ∈ text, blank c = false) (hne : text ≠ []) :
    words blank text = [text] :=
  wordsFrom_solid h hne

lemma words_blank_append {first : List α} (h : ∀ c ∈ first, blank c) (rest : List α) :
    words blank (first ++ rest) = words blank rest := by
  induction first with
  | nil => rfl
  | cons c first ih =>
      obtain ⟨hc, hfirst⟩ := List.forall_mem_cons.1 h
      rw [List.cons_append, words, wordsFrom, if_pos hc]
      exact ih hfirst

lemma solid_of_mem_wordsFrom {word text w : List α} (hword : ∀ c ∈ word, blank c = false)
    (h : w ∈ wordsFrom blank word text) : w ≠ [] ∧ ∀ c ∈ w, blank c = false := by
  have hnil : ∀ c ∈ ([] : List α), blank c = false := fun _ hmem => absurd hmem List.not_mem_nil
  induction text generalizing word with
  | nil =>
      rw [wordsFrom] at h
      split at h
      · cases h
      next hne =>
        obtain rfl := List.mem_singleton.1 h
        exact ⟨by simpa using hne, hword⟩
  | cons c text ih =>
      rw [wordsFrom] at h
      split at h
      · split at h
        · exact ih hnil h
        next hne =>
          rcases List.mem_cons.1 h with rfl | h
          · exact ⟨by simpa using hne, hword⟩
          · exact ih hnil h
      next hc =>
        refine ih (fun d hd => ?_) h
        rcases List.mem_append.1 hd with hd | hd
        · exact hword d hd
        · rw [List.mem_singleton.1 hd]
          exact Bool.eq_false_iff.2 hc

/-- Words are not empty and hold no blanks. -/
lemma solid_of_mem_words {text w : List α} (h : w ∈ words blank text) :
    w ≠ [] ∧ ∀ c ∈ w, blank c = false :=
  solid_of_mem_wordsFrom (fun _ hmem => absurd hmem List.not_mem_nil) h

end Words

/-! ## Greedy repetitions -/

section Greedy

variable (least : ℕ) (after : List α → Option β)

/-- What follows at most so many characters, of which there are at least `least`. -/
def tries (text : List α) : ℕ → Option β
  | 0 => if least = 0 then after text else none
  | count + 1 =>
      if count + 1 < least then none
      else (after (text.drop (count + 1))).or (tries text count)

/-- As many characters of a kind as there are, at least `least`, before what follows. -/
def greedy (accepts : α → Bool) (text : List α) : Option β :=
  tries least after text (text.takeWhile accepts).length

variable {least after}

lemma tries_eq_none_iff {text : List α} {count : ℕ} :
    tries least after text count = none ↔
      ∀ k, least ≤ k → k ≤ count → after (text.drop k) = none := by
  induction count with
  | zero =>
      rw [tries]
      constructor
      · intro h k hleast hk
        obtain rfl : k = 0 := Nat.le_zero.1 hk
        rwa [if_pos (Nat.le_zero.1 hleast)] at h
      · intro h
        split
        · next hleast => exact h 0 (Nat.le_of_eq hleast) (Nat.le_refl 0)
        · rfl
  | succ count ih =>
      rw [tries]
      constructor
      · intro h k hleast hk
        rw [if_neg (by omega), Option.or_eq_none_iff] at h
        rcases Nat.lt_or_ge count k with hlt | hge
        · obtain rfl : k = count + 1 := by omega
          exact h.1
        · exact ih.1 h.2 k hleast hge
      · intro h
        split
        · rfl
        · exact Option.or_eq_none_iff.2 ⟨h _ (by omega) (Nat.le_refl _),
            ih.2 fun k hleast hk => h k hleast (by omega)⟩

lemma tries_eq_some_iff {text : List α} {count : ℕ} {r : β} :
    tries least after text count = some r ↔
      ∃ k, least ≤ k ∧ k ≤ count ∧ after (text.drop k) = some r ∧
        ∀ j, k < j → j ≤ count → after (text.drop j) = none := by
  induction count with
  | zero =>
      rw [tries]
      constructor
      · intro h
        split at h
        · next hleast => exact ⟨0, Nat.le_of_eq hleast, Nat.le_refl 0, h, fun j hj hj' => by omega⟩
        · cases h
      · rintro ⟨k, hleast, hk, hafter, -⟩
        obtain rfl : k = 0 := Nat.le_zero.1 hk
        rwa [if_pos (Nat.le_zero.1 hleast)]
  | succ count ih =>
      rw [tries]
      constructor
      · intro h
        split at h
        · cases h
        next hleast =>
          rcases Option.or_eq_some_iff.1 h with hlast | ⟨hlast, hless⟩
          · exact ⟨count + 1, by omega, Nat.le_refl _, hlast, fun j hj hj' => by omega⟩
          · obtain ⟨k, hk, hkcount, hafter, hmore⟩ := ih.1 hless
            refine ⟨k, hk, by omega, hafter, fun j hj hj' => ?_⟩
            rcases Nat.lt_or_ge count j with hlt | hge
            · obtain rfl : j = count + 1 := by omega
              exact hlast
            · exact hmore j hj hge
      · rintro ⟨k, hleast, hk, hafter, hmore⟩
        rw [if_neg (by omega)]
        rcases Nat.lt_or_ge count k with hlt | hge
        · obtain rfl : k = count + 1 := by omega
          exact Option.or_eq_some_iff.2 (.inl hafter)
        · exact Option.or_eq_some_iff.2 (.inr ⟨hmore _ (by omega) (Nat.le_refl _),
            ih.2 ⟨k, hleast, hge, hafter, fun j hj hj' => hmore j hj (by omega)⟩⟩)

/-- The repetition takes the most characters with which the rest matches. -/
theorem greedy_eq_some_iff {accepts : α → Bool} {text : List α} {r : β} :
    greedy least after accepts text = some r ↔
      ∃ k, least ≤ k ∧ k ≤ (text.takeWhile accepts).length ∧ after (text.drop k) = some r ∧
        ∀ j, k < j → j ≤ (text.takeWhile accepts).length → after (text.drop j) = none :=
  tries_eq_some_iff

lemma greedy_eq_none_iff {accepts : α → Bool} {text : List α} :
    greedy least after accepts text = none ↔
      ∀ k, least ≤ k → k ≤ (text.takeWhile accepts).length → after (text.drop k) = none :=
  tries_eq_none_iff

/-- A repetition before something that matches at one place only. -/
lemma greedy_of_only {accepts : α → Bool} {text : List α} (place : ℕ) (hleast : least ≤ place)
    (hplace : place ≤ (text.takeWhile accepts).length)
    (honly : ∀ k, least ≤ k → k ≤ (text.takeWhile accepts).length → k ≠ place →
      after (text.drop k) = none) :
    greedy least after accepts text = after (text.drop place) := by
  rcases hafter : after (text.drop place) with _ | r
  · refine greedy_eq_none_iff.2 fun k hk hcount => ?_
    by_cases heq : k = place
    · rwa [heq]
    · exact honly k hk hcount heq
  · exact greedy_eq_some_iff.2 ⟨place, hleast, hplace, hafter, fun j hj hcount =>
      honly j (by omega) hcount (by omega)⟩

/-- A repetition of at least one character has to begin with one. -/
lemma greedy_of_head {accepts : α → Bool} {text : List α}
    (h : ∀ c ∈ text.head?, accepts c = false) : greedy 1 after accepts text = none := by
  refine greedy_eq_none_iff.2 fun k hk hcount => ?_
  have hnone : text.takeWhile accepts = [] := by
    rcases text with _ | ⟨c, text⟩
    · rfl
    · exact List.takeWhile_cons_of_neg (by simp [h c rfl])
  rw [hnone, List.length_nil] at hcount
  omega

/-- What a pattern leaves: a rest of the text that is not empty, so many characters shorter. -/
def Consumes (count : ℕ) (pattern : List α → Option (List α)) : Prop :=
  ∀ text rest : List α, pattern text = some rest →
    rest ≠ [] ∧ rest <:+ text ∧ rest.length + count ≤ text.length

lemma Consumes.greedy {count least : ℕ} {pattern : List α → Option (List α)}
    (h : Consumes count pattern) (accepts : α → Bool) :
    Consumes (count + least) (greedy least pattern accepts) := by
  intro text rest hrest
  obtain ⟨k, hleast, hk, hpattern, -⟩ := greedy_eq_some_iff.1 hrest
  obtain ⟨hne, hsuffix, hlength⟩ := h _ _ hpattern
  have hrun : (text.takeWhile accepts).length ≤ text.length :=
    (List.takeWhile_sublist accepts).length_le
  rw [List.length_drop] at hlength
  exact ⟨hne, hsuffix.trans (List.drop_suffix k text), by omega⟩

end Greedy

/-! ## Decimal digits -/

lemma toNat_of_mem_toDigits {n : ℕ} {digit : Char} (h : digit ∈ Nat.toDigits 10 n) :
    0x30 ≤ digit.toNat ∧ digit.toNat ≤ 0x39 := by
  have hdigit := Nat.isDigit_of_mem_toDigits (by decide) (by decide) h
  simp only [Char.isDigit, Bool.and_eq_true, decide_eq_true_eq, UInt32.le_iff_toNat_le] at hdigit
  exact hdigit

/-- The digits of a number, printed in any alphabet, are read back as the number. -/
lemma foldl_toDigits {encode : Char → α} {value : α → ℕ}
    (h : ∀ digit : Char, digit.toNat ≤ 0x39 → value (encode digit) = digit.toNat - 0x30) (n : ℕ) :
    ((Nat.toDigits 10 n).map encode).foldl (fun number c => number * 10 + value c) 0 = n := by
  have hfold : ∀ (digits : List Char) (number : ℕ), (∀ digit ∈ digits, digit.toNat ≤ 0x39) →
      (digits.map encode).foldl (fun number c => number * 10 + value c) number =
        Nat.ofDigitChars 10 digits number := by
    intro digits
    induction digits with
    | nil => exact fun number _ => Nat.ofDigitChars_nil.symm
    | cons digit digits ih =>
        intro number hdigits
        obtain ⟨hdigit, hdigits⟩ := List.forall_mem_cons.1 hdigits
        rw [List.map_cons, List.foldl_cons, ih _ hdigits, Nat.ofDigitChars_cons, h digit hdigit,
          Nat.mul_comm]
        rfl
  exact (hfold _ 0 fun digit hdigit => (toNat_of_mem_toDigits hdigit).2).trans
    Nat.ofDigitChars_ten_toDigits

/-! ## Splits -/

/-- The parts of a text, split further. -/
lemma splitOnP_eq_flatMap {p q : α → Bool} (h : ∀ x, p x → q x) (text : List α) :
    text.splitOnP q = (text.splitOnP p).flatMap (List.splitOnP q) := by
  induction text with
  | nil => simp
  | cons x text ih =>
      obtain ⟨first, rest, hparts⟩ := List.exists_cons_of_ne_nil (List.splitOnP_ne_nil p text)
      rw [hparts, List.flatMap_cons] at ih
      rw [List.splitOnP_cons_eq_if_modifyHead, List.splitOnP_cons_eq_if_modifyHead, hparts, ih]
      by_cases hp : p x
      · rw [if_pos hp, if_pos (h x hp)]
        rfl
      · rw [if_neg hp, List.modifyHead_cons, List.flatMap_cons,
          List.splitOnP_cons_eq_if_modifyHead]
        obtain ⟨head, tail, hfirst⟩ := List.exists_cons_of_ne_nil (List.splitOnP_ne_nil q first)
        rw [hfirst]
        split <;> rfl

lemma splitOnP_map {p : β → Bool} (f : α → β) (text : List α) :
    (text.map f).splitOnP p = (text.splitOnP fun x => p (f x)).map (List.map f) := by
  induction text with
  | nil => simp
  | cons x text ih =>
      obtain ⟨first, rest, hparts⟩ :=
        List.exists_cons_of_ne_nil (List.splitOnP_ne_nil (fun x => p (f x)) text)
      rw [List.map_cons, List.splitOnP_cons_eq_if_modifyHead, List.splitOnP_cons_eq_if_modifyHead,
        ih, hparts]
      split <;> rfl

end Text
