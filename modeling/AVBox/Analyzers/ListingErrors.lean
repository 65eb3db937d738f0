import AVBox.Analyzers.Listings
import Mathlib.Data.List.Induction
import Mathlib.Data.List.ReduceOption

/-!
# Where a listing raises

`int` takes decimal digits in groups (`IsNumber`), and `isdigit` takes more than those.  The
listing of 7z is always read, and the sizes of its members are converted if they are numbers
(`sevenZip_converts_iff`).  The listing of lha is read if every field of digits is a number
(`lha_converts_iff`).
-/

namespace AVBox

open Fallible PyStr

namespace Numerals

variable (numerals : Numerals)

/-- A number that `int` takes: decimal digits with single underscores between them, at most 4300,
behind a sign or none. -/
def IsNumber (text : PyStr) : Prop :=
  ∃ sign groups, sign ∈ [[], ofString "-", ofString "+"] ∧
    text = sign ++ List.intercalate [0x5F] groups ∧ groups ≠ [] ∧
    (∀ group ∈ groups, group ≠ [] ∧ ∀ c ∈ group, (numerals.decimal c).isSome) ∧
    groups.flatten.length ≤ 4300

/-- Digits that are all decimal, at most 4300. -/
def IsDecimal (field : PyStr) : Prop :=
  (∀ c ∈ field, (numerals.decimal c).isSome) ∧ field.length ≤ 4300

variable {numerals}

lemma decimal_eq_none {c : Fin 0x110000} (hascii : c.val < 0x80)
    (hdigit : ¬(0x30 ≤ c.val ∧ c.val ≤ 0x39)) : numerals.decimal c = none := by
  rw [numerals.decimal_ascii c hascii, if_neg hdigit]

section MapM

variable {α β : Type} {f : α → Option β}

lemma length_of_mapM {items : List α} {values : List β} (h : items.mapM f = some values) :
    values.length = items.length := by
  induction items generalizing values with
  | nil =>
      obtain rfl := Option.some.inj (List.mapM_nil.symm.trans h)
      rfl
  | cons item items ih =>
      rw [List.mapM_cons] at h
      obtain ⟨value, -, h⟩ := Option.bind_eq_some_iff.1 h
      obtain ⟨rest, hrest, h⟩ := Option.bind_eq_some_iff.1 h
      obtain rfl := Option.some.inj h
      rw [List.length_cons, List.length_cons, ih hrest]

lemma exists_mapM_iff {items : List α} :
    (∃ values, items.mapM f = some values) ↔ ∀ item ∈ items, (f item).isSome := by
  induction items with
  | nil => exact ⟨fun _ _ hmem => absurd hmem List.not_mem_nil, fun _ => ⟨[], rfl⟩⟩
  | cons item items ih =>
      rw [List.forall_mem_cons, ← ih, Option.isSome_iff_exists]
      constructor
      · rintro ⟨values, h⟩
        rw [List.mapM_cons] at h
        obtain ⟨value, hvalue, h⟩ := Option.bind_eq_some_iff.1 h
        obtain ⟨rest, hrest, -⟩ := Option.bind_eq_some_iff.1 h
        exact ⟨⟨value, hvalue⟩, rest, hrest⟩
      · rintro ⟨⟨value, hvalue⟩, rest, hrest⟩
        refine ⟨value :: rest, ?_⟩
        rw [List.mapM_cons, hvalue, hrest]
        rfl

lemma exists_of_mem_mapM_some {items : List α} {values : List β} (h : items.mapM f = some values)
    {value : β} (hvalue : value ∈ values) : ∃ item ∈ items, f item = some value := by
  induction items generalizing values with
  | nil =>
      obtain rfl := Option.some.inj (List.mapM_nil.symm.trans h)
      cases hvalue
  | cons item items ih =>
      rw [List.mapM_cons] at h
      obtain ⟨first, hfirst, h⟩ := Option.bind_eq_some_iff.1 h
      obtain ⟨rest, hrest, h⟩ := Option.bind_eq_some_iff.1 h
      obtain rfl := Option.some.inj h
      rcases List.mem_cons.1 hvalue with rfl | hvalue
      · exact ⟨item, List.mem_cons_self, hfirst⟩
      · obtain ⟨other, hother, hvalue⟩ := ih hrest hvalue
        exact ⟨other, List.mem_cons_of_mem _ hother, hvalue⟩

lemma mapM_eq_map {g : α → β} {items : List α} (h : ∀ item ∈ items, f item = some (g item)) :
    items.mapM f = some (items.map g) := by
  induction items with
  | nil => rfl
  | cons item items ih =>
      obtain ⟨hitem, hitems⟩ := List.forall_mem_cons.1 h
      rw [List.mapM_cons, hitem, ih hitems]
      rfl

end MapM

/-! ## What `int` takes -/

/-- The values of grouped digits, and how many there are. -/
lemma grouped_iff {text : PyStr} :
    (∃ values, numerals.grouped text = some values ∧ values.length ≤ 4300) ↔
      ∃ groups, text = List.intercalate [0x5F] groups ∧ groups ≠ [] ∧
        (∀ group ∈ groups, group ≠ [] ∧ ∀ c ∈ group, (numerals.decimal c).isSome) ∧
        groups.flatten.length ≤ 4300 := by
  constructor
  · rintro ⟨values, h, hcount⟩
    rw [grouped] at h
    split at h
    · cases h
    next hempty =>
      have hdecimal := exists_mapM_iff.1 ⟨values, h⟩
      refine ⟨text.splitOn 0x5F, (List.intercalate_splitOn 0x5F).symm, List.splitOn_ne_nil _ _,
        fun group hgroup => ⟨fun hnil => hempty (hnil ▸ hgroup), fun c hc => ?_⟩, ?_⟩
      · exact hdecimal c (List.mem_flatten.2 ⟨group, hgroup, hc⟩)
      · rwa [← length_of_mapM h]
  · rintro ⟨groups, rfl, hne, hgroups, hcount⟩
    have hsplit : (List.intercalate [0x5F] groups).splitOn 0x5F = groups := by
      refine List.splitOn_intercalate 0x5F (fun group hgroup hmem => ?_) hne
      have hsome := (hgroups group hgroup).2 _ hmem
      rw [decimal_eq_none (by decide) (by decide)] at hsome
      cases hsome
    obtain ⟨values, hvalues⟩ := exists_mapM_iff (f := numerals.decimal).2 fun c hc => by
      obtain ⟨group, hgroup, hmem⟩ := List.mem_flatten.1 hc
      exact (hgroups group hgroup).2 c hmem
    refine ⟨values, ?_, (length_of_mapM hvalues).trans_le hcount⟩
    rw [grouped, hsplit, if_neg fun hnil => (hgroups [] hnil).1 rfl, hvalues]

/-- A text without blanks at its ends. -/
structure Trimmed (blank : Fin 0x110000 → Bool) (text : PyStr) : Prop where
  head : ∀ c ∈ text.head?, blank c = false
  last : ∀ c ∈ text.getLast?, blank c = false

lemma dropWhile_eq_self {blank : Fin 0x110000 → Bool} {text : PyStr}
    (h : ∀ c ∈ text.head?, blank c = false) : text.dropWhile blank = text := by
  rcases text with _ | ⟨c, text⟩
  · rfl
  · exact List.dropWhile_cons_of_neg (by simp [h c rfl])

lemma Trimmed.eq {blank : Fin 0x110000 → Bool} {text : PyStr} (h : Trimmed blank text) :
    rstripOf blank (text.dropWhile blank) = text := by
  rw [dropWhile_eq_self h.head, rstripOf, dropWhile_eq_self, List.reverse_reverse]
  rw [List.head?_reverse]
  exact h.last

lemma Trimmed.imp {blank blank' : Fin 0x110000 → Bool} {text : PyStr} (h : Trimmed blank text)
    (himp : ∀ c, blank' c → blank c) : Trimmed blank' text where
  head := fun c hc => by
    by_contra hblank
    simpa [himp c (Bool.eq_true_of_not_eq_false hblank)] using h.head c hc
  last := fun c hc => by
    by_contra hblank
    simpa [himp c (Bool.eq_true_of_not_eq_false hblank)] using h.last c hc

/-- `strip` trims. -/
lemma trimmed_strip (text : PyStr) : Trimmed isSpace (strip text) := by
  have hdrop : ∀ {t : PyStr}, ∀ c ∈ (t.dropWhile isSpace).head?, isSpace c = false := by
    intro t c hc
    have h := List.head?_dropWhile_not isSpace t
    rwa [Option.mem_def.1 hc] at h
  refine ⟨fun c hc => ?_, fun c hc => ?_⟩
  · obtain ⟨rest, hrest⟩ : strip text <+: text.dropWhile isSpace := by
      rw [strip, rstrip, rstripOf, ← List.reverse_suffix, List.reverse_reverse]
      exact List.dropWhile_suffix isSpace
    refine @hdrop text c ?_
    rw [← hrest]
    rcases hstrip : strip text with _ | ⟨d, word⟩
    · rw [hstrip] at hc
      cases hc
    · rwa [hstrip] at hc
  · rw [strip, rstrip, rstripOf, List.getLast?_reverse] at hc
    exact hdrop c hc

lemma isSpace_of_isIntSpace (c : Fin 0x110000) (h : isIntSpace c) : isSpace c := by
  rw [isIntSpace] at h
  split at h
  · simp only [isSpace, Bool.or_eq_true, Bool.and_eq_true, beq_iff_eq, decide_eq_true_eq] at h ⊢
    omega
  · exact h

lemma exists_int_iff {text : PyStr} (h : Trimmed isIntSpace text) :
    (∃ n, numerals.int text = .ok n) ↔
      ∃ values, numerals.grouped (signed text).2 = some values ∧ values.length ≤ 4300 := by
  rw [int, h.eq]
  dsimp only
  rcases hgrouped : numerals.grouped (signed text).2 with _ | values
  · constructor
    · rintro ⟨n, hn⟩
      cases hn
    · rintro ⟨values, hvalues, -⟩
      cases hvalues
  · dsimp only
    constructor
    · rintro ⟨n, hn⟩
      split at hn
      · cases hn
      · next hcount => exact ⟨values, rfl, Nat.not_lt.1 hcount⟩
    · rintro ⟨other, hother, hcount⟩
      obtain rfl := Option.some.inj hother
      rw [if_neg (Nat.not_lt.2 hcount)]
      exact ⟨_, rfl⟩

/-- `int` takes the numbers, and no other texts without blanks at their ends. -/
lemma int_ok_iff_isNumber {text : PyStr} (h : Trimmed isIntSpace text) :
    (∃ n, numerals.int text = .ok n) ↔ numerals.IsNumber text := by
  rw [exists_int_iff h, grouped_iff]
  constructor
  · rintro ⟨groups, hdigits, hgroups⟩
    obtain ⟨sign, hsign, htext⟩ : ∃ sign, sign ∈ [[], ofString "-", ofString "+"] ∧
        text = sign ++ (signed text).2 := by
      rcases text with _ | ⟨c, rest⟩
      · exact ⟨[], by simp, rfl⟩
      · rw [signed]
        split
        · next hc => exact ⟨[c], by simp [ofString, Fin.ext_iff, hc], rfl⟩
        split
        · next hc => exact ⟨[c], by simp [ofString, Fin.ext_iff, hc], rfl⟩
        · exact ⟨[], by simp, rfl⟩
    exact ⟨sign, groups, hsign, hdigits ▸ htext, hgroups⟩
  · rintro ⟨sign, groups, hsign, rfl, hgroups⟩
    refine ⟨groups, ?_, hgroups⟩
    have hbody : (signed (List.intercalate [0x5F] groups)).2 = List.intercalate [0x5F] groups := by
      obtain ⟨hne, hdecimal, -⟩ := hgroups
      rcases groups with _ | ⟨group, groups⟩
      · exact absurd rfl hne
      obtain ⟨hgroup, hchars⟩ := hdecimal group List.mem_cons_self
      rcases group with _ | ⟨c, group⟩
      · exact absurd rfl hgroup
      have hc := hchars c List.mem_cons_self
      have hintercalate : ∃ rest, List.intercalate [0x5F] ((c :: group) :: groups) = c :: rest := by
        rcases groups with _ | ⟨second, groups⟩
        · exact ⟨group, by simp⟩
        · exact ⟨_, by rw [List.intercalate_cons_of_ne_nil (by simp)]; rfl⟩
      obtain ⟨rest, hrest⟩ := hintercalate
      rw [hrest, signed]
      split
      · next hminus =>
          rw [decimal_eq_none (by omega) (by omega)] at hc
          cases hc
      split
      · next hplus =>
          rw [decimal_eq_none (by omega) (by omega)] at hc
          cases hc
      · rfl
    simp only [List.mem_cons, List.not_mem_nil, or_false] at hsign
    rcases hsign with rfl | rfl | rfl
    · exact hbody
    · rfl
    · rfl

/-! ## Fields of digits -/

lemma Trimmed.of_solid {field : PyStr} (h : ∀ c ∈ field, isSpace c = false) :
    Trimmed isSpace field :=
  ⟨fun c hc => h c (List.mem_of_mem_head? hc), fun c hc => h c (List.mem_of_mem_getLast? hc)⟩

lemma ne_of_isDigit {c : Fin 0x110000} (h : numerals.isDigit c) : c.val ∉ [0x2D, 0x2B, 0x5F] := by
  intro hmem
  simp only [List.mem_cons, List.not_mem_nil, or_false] at hmem
  rw [numerals.isDigit_ascii c (by omega), decimal_eq_none (by omega) (by omega)] at h
  cases h

lemma grouped_of_digits {field : PyStr} (hne : field ≠ []) (h : ∀ c ∈ field, numerals.isDigit c) :
    numerals.grouped field = field.mapM numerals.decimal := by
  have hsplit : field.splitOn 0x5F = [field] :=
    List.splitOn_eq_singleton fun hmem => ne_of_isDigit (h _ hmem) (by decide)
  rw [grouped, hsplit, if_neg (by simpa using hne.symm), List.flatten_singleton]

lemma signed_of_digits {field : PyStr} (h : ∀ c ∈ field, numerals.isDigit c) :
    signed field = (false, field) := by
  rcases field with _ | ⟨c, field⟩
  · rfl
  · have hc := ne_of_isDigit (h c List.mem_cons_self)
    simp only [List.mem_cons, List.not_mem_nil, or_false, not_or] at hc
    rw [signed, if_neg hc.1, if_neg hc.2.1]

/-- `int` takes a field of digits if they are decimal. -/
lemma int_ok_iff_isDecimal {field : PyStr} (hne : field ≠ [])
    (hsolid : ∀ c ∈ field, isSpace c = false) (h : ∀ c ∈ field, numerals.isDigit c) :
    (∃ n, numerals.int field = .ok n) ↔ numerals.IsDecimal field := by
  have htrimmed := (Trimmed.of_solid hsolid).imp isSpace_of_isIntSpace
  rw [exists_int_iff htrimmed, signed_of_digits h, grouped_of_digits hne h, IsDecimal,
    ← exists_mapM_iff]
  constructor
  · rintro ⟨values, hvalues, hcount⟩
    exact ⟨⟨values, hvalues⟩, (length_of_mapM hvalues).symm.trans_le hcount⟩
  · rintro ⟨⟨values, hvalues⟩, hcount⟩
    exact ⟨values, hvalues, (length_of_mapM hvalues).trans_le hcount⟩

lemma int_of_digits {field : PyStr} {values : List ℕ} (hne : field ≠ [])
    (hsolid : ∀ c ∈ field, isSpace c = false) (h : ∀ c ∈ field, numerals.isDigit c)
    (hvalues : field.mapM numerals.decimal = some values) (hcount : field.length ≤ 4300) :
    numerals.int field = .ok (ofDigits values) := by
  have htrimmed := (Trimmed.of_solid hsolid).imp isSpace_of_isIntSpace
  rw [int, htrimmed.eq, signed_of_digits h]
  simp only [grouped_of_digits hne h, hvalues]
  rw [if_neg (by rw [length_of_mapM hvalues]; omega)]
  rfl

lemma ofDigits_append (values : List ℕ) (value : ℕ) :
    ofDigits (values ++ [value]) = ofDigits values * 10 + value := by
  rw [ofDigits, List.foldl_append]
  rfl

lemma ofDigits_lt {values : List ℕ} (h : ∀ value ∈ values, value < 10) :
    ofDigits values < 10 ^ values.length := by
  induction values using List.reverseRecOn with
  | nil => decide
  | append_singleton values value ih =>
      have hvalue := h value (by simp)
      have hvalues := ih fun other hother => h other (by simp [hother])
      rw [ofDigits_append, List.length_append, List.length_singleton, Nat.pow_succ]
      omega

/-! ## Printed numbers -/

lemma digit_of_mem_ofNat {n : ℕ} {c : Fin 0x110000} (h : c ∈ ofNat n) :
    0x30 ≤ c.val ∧ c.val ≤ 0x39 := by
  obtain ⟨digit, hdigit, rfl⟩ := List.mem_map.1 h
  have hrange := Text.toNat_of_mem_toDigits hdigit
  rwa [Fin.val_ofNat, Nat.mod_eq_of_lt (by omega)]

lemma ofNat_ne_nil (n : ℕ) : ofNat n ≠ [] := by
  rw [ofNat, Ne, List.map_eq_nil_iff]
  exact Nat.toDigits_ne_nil

lemma solid_ofNat (n : ℕ) : ∀ c ∈ ofNat n, isSpace c = false := by
  intro c hc
  have hdigit := digit_of_mem_ofNat hc
  simp only [isSpace, Bool.or_eq_false_iff, Bool.and_eq_false_iff, beq_eq_false_iff_ne,
    decide_eq_false_iff_not]
  omega

lemma decimal_of_mem_ofNat {n : ℕ} {c : Fin 0x110000} (h : c ∈ ofNat n) :
    numerals.decimal c = some (c.val - 0x30) := by
  have hdigit := digit_of_mem_ofNat h
  rw [numerals.decimal_ascii c (by omega), if_pos hdigit]

lemma isDigit_of_mem_ofNat {n : ℕ} {c : Fin 0x110000} (h : c ∈ ofNat n) :
    numerals.isDigit c := by
  have hdigit := digit_of_mem_ofNat h
  rw [numerals.isDigit_ascii c (by omega), decimal_of_mem_ofNat h]
  rfl

lemma ofDigits_ofNat (n : ℕ) : ofDigits ((ofNat n).map fun c => c.val - 0x30) = n := by
  rw [ofDigits, ofNat, List.foldl_map]
  refine Text.foldl_toDigits (fun digit hdigit => ?_) n
  rw [Fin.val_ofNat, Nat.mod_eq_of_lt (by omega)]

/-- A printed number is read as it was. -/
lemma int_ofNat {n : ℕ} (h : (ofNat n).length ≤ 4300) : numerals.int (ofNat n) = .ok n := by
  have hvalues : (ofNat n).mapM numerals.decimal = some ((ofNat n).map fun c => c.val - 0x30) :=
    mapM_eq_map fun c hc => decimal_of_mem_ofNat hc
  rw [int_of_digits (ofNat_ne_nil n) (solid_ofNat n) (fun c hc => isDigit_of_mem_ofNat hc)
    hvalues h, ofDigits_ofNat]

/-- The number of a decimal field is printed in as many digits at most. -/
lemma exists_decimal {field : PyStr} (hne : field ≠ []) (hsolid : ∀ c ∈ field, isSpace c = false)
    (hdigits : ∀ c ∈ field, numerals.isDigit c) {size : ℤ} (h : numerals.int field = .ok size) :
    ∃ n : ℕ, size = n ∧ (ofNat n).length ≤ 4300 := by
  obtain ⟨hdecimal, hcount⟩ := (int_ok_iff_isDecimal hne hsolid hdigits).1 ⟨size, h⟩
  obtain ⟨values, hvalues⟩ := exists_mapM_iff.2 hdecimal
  rw [int_of_digits hne hsolid hdigits hvalues hcount] at h
  refine ⟨ofDigits values, (Except.ok.inj h).symm, ?_⟩
  have hlt : ofDigits values < 10 ^ values.length := ofDigits_lt fun value hvalue => by
    obtain ⟨c, -, hc⟩ := exists_of_mem_mapM_some hvalues hvalue
    exact numerals.decimal_lt hc
  rw [length_of_mapM hvalues] at hlt
  refine Nat.le_trans ?_ hcount
  rw [ofNat, List.length_map, Nat.length_toDigits_le_iff (by decide)
    (List.length_pos_of_ne_nil hne)]
  exact hlt

end Numerals

namespace Listings

open Numerals Text
open ContainerAnalyzer (safeName)

variable {env : ExtractEnv} {numerals : Numerals}

/-- The listing is read, and the size of each member that is extracted is converted. -/
def Converts (env : ExtractEnv) (numerals : Numerals) (kind : Kind) (output : PyStr) : Prop :=
  ∃ listed, members numerals kind output = .ok listed ∧
    ∀ member ∈ listed, safeName env member.name = true → member.directory = false →
      ∃ size, member.declared = .ok size

/-! ## 7z -/

/-- The block of a member that is extracted, with the size that is converted. -/
structure Extracted (env : ExtractEnv) (block size : PyStr) : Prop where
  named : ∃ name, valueOf "Path" block = some name ∧ name ≠ [] ∧
    name ∉ [ofString ".", ofString ".."] ∧ safeName env name = true
  sized : valueOf "Size" block = some size
  noFolder : valueOf "Folder" block ≠ some (ofString "+")
  noDirectory : ∀ attributes, valueOf "Attributes" block = some attributes →
    ¬ofString "D" <+: attributes

lemma extracted_iff {block : PyStr} {row : SevenZipRow} (h : sevenZipRow block = some row) :
    Extracted env block row.size ↔ safeName env row.name = true ∧ row.directory = false := by
  unfold sevenZipRow at h
  split at h
  next name size hname hsize =>
    split at h
    · cases h
    next hnamed =>
      obtain rfl := Option.some.inj h
      rw [not_or] at hnamed
      rw [Bool.or_eq_false_iff, decide_eq_false_iff_not]
      constructor
      · rintro ⟨⟨_, hpath, -, -, hsafe⟩, -, hfolder, hattributes⟩
        obtain rfl := Option.some.inj (hname.symm.trans hpath)
        refine ⟨hsafe, fun heq => ?_, ?_⟩
        · rcases hvalue : valueOf "Folder" block with _ | folder
          · rw [hvalue] at heq
            exact absurd heq (by decide)
          · rw [hvalue] at heq hfolder
            exact hfolder (congrArg some heq)
        · rw [← Bool.not_eq_true, List.isPrefixOf_iff_prefix]
          rcases hvalue : valueOf "Attributes" block with _ | attributes
          · exact fun hprefix => absurd (List.prefix_nil.1 hprefix) (by decide)
          · exact hattributes attributes hvalue
      · rintro ⟨hsafe, hfolder, hattributes⟩
        refine ⟨⟨name, hname, hnamed.1, hnamed.2, hsafe⟩, hsize, fun hvalue => ?_,
          fun attributes hvalue hprefix => ?_⟩
        · exact hfolder (by rw [hvalue, Option.getD_some])
        · rw [hvalue, Option.getD_some, ← Bool.not_eq_true, List.isPrefixOf_iff_prefix]
            at hattributes
          exact hattributes hprefix
  next => cases h

/-- A value has no blanks at its ends. -/
lemma trimmed_valueOf {key : String} {block value : PyStr} (h : valueOf key block = some value) :
    Trimmed isSpace value := by
  obtain ⟨before, after, hpairs, -⟩ := List.lookup_eq_some_iff.1 h
  have hmem : (ofString key, value) ∈ assignments block := by simp [hpairs]
  obtain ⟨line, -, hline⟩ := List.mem_filterMap.1 (List.mem_reverse.1 hmem)
  unfold assignment at hline
  split at hline
  · obtain ⟨-, rfl⟩ := Prod.mk.inj (Option.some.inj hline)
    exact trimmed_strip _
  · cases hline

lemma declared_ok_iff {block : PyStr} {row : SevenZipRow} (h : sevenZipRow block = some row) :
    (∃ size, row.declared numerals = .ok size) ↔ row.size = [] ∨ numerals.IsNumber row.size := by
  have hsize : valueOf "Size" block = some row.size := by
    unfold sevenZipRow at h
    split at h
    next name size _ hsize =>
      split at h
      · cases h
      · obtain rfl := Option.some.inj h
        exact hsize
    next => cases h
  unfold SevenZipRow.declared
  split
  next hempty =>
    exact iff_of_true ⟨0, int_ofNat (n := 0) (by decide)⟩ (.inl hempty)
  next hne =>
    rw [int_ok_iff_isNumber ((trimmed_valueOf hsize).imp isSpace_of_isIntSpace)]
    exact (or_iff_right hne).symm

lemma exists_row_of_extracted {block size : PyStr} (h : Extracted env block size) :
    ∃ row, sevenZipRow block = some row ∧ row.size = size := by
  obtain ⟨name, hname, hne, hdots, -⟩ := h.named
  unfold sevenZipRow
  simp only [hname, h.sized]
  rw [if_neg (not_or.2 ⟨hne, hdots⟩)]
  exact ⟨_, rfl, rfl⟩

lemma members_sevenZip {kind : Kind} (hkind : kind ≠ .lha) (output : PyStr) :
    members numerals kind output = .ok ((parse7zListing output).map fun row =>
      ⟨row.name, row.directory, row.declared numerals⟩) := if_neg hkind

/-- The listing of 7z is always read.  The sizes are converted if they are numbers or missing
behind their equals sign. -/
theorem sevenZip_converts_iff {kind : Kind} (hkind : kind ≠ .lha) (output : PyStr) :
    Converts env numerals kind output ↔
      ∀ block ∈ blocks output, ∀ size, Extracted env block size →
        size = [] ∨ numerals.IsNumber size := by
  constructor
  · rintro ⟨listed, hlisted, h⟩ block hblock size hextracted
    rw [members_sevenZip hkind] at hlisted
    obtain rfl := Except.ok.inj hlisted
    obtain ⟨row, hrow, rfl⟩ := exists_row_of_extracted hextracted
    obtain ⟨hsafe, hfile⟩ := (extracted_iff hrow).1 hextracted
    have hmem : row ∈ parse7zListing output := List.mem_filterMap.2 ⟨block, hblock, hrow⟩
    exact (declared_ok_iff hrow).1 (h _ (List.mem_map_of_mem hmem) hsafe hfile)
  · intro h
    refine ⟨_, members_sevenZip hkind output, fun member hmember hsafe hfile => ?_⟩
    obtain ⟨row, hmem, rfl⟩ := List.mem_map.1 hmember
    obtain ⟨block, hblock, hrow⟩ := List.mem_filterMap.1 hmem
    exact (declared_ok_iff hrow).2
      (h block hblock row.size ((extracted_iff hrow).2 ⟨hsafe, hfile⟩))

/-! ## lha -/

/-- The line of a row. -/
def IsRow (line : PyStr) : Prop :=
  (split line).length ≥ 5 ∧ (split line).head? = some (ofString "[generic]")

/-- The fields of digits between the first and the last field of a line are decimal. -/
def DigitsDecimal (numerals : Numerals) (line : PyStr) : Prop :=
  ∀ field ∈ innerFields line, isDigits numerals field → numerals.IsDecimal field

lemma solid_of_mem_innerFields {line field : PyStr} (h : field ∈ innerFields line) :
    field ≠ [] ∧ ∀ c ∈ field, isSpace c = false :=
  solid_of_mem_words (List.mem_of_mem_drop ((List.dropLast_sublist _).subset h))

lemma isDigits_iff {field : PyStr} :
    isDigits numerals field ↔ field ≠ [] ∧ ∀ c ∈ field, numerals.isDigit c := by
  rw [isDigits, Bool.and_eq_true, Bool.not_eq_true', List.all_eq_true, List.isEmpty_eq_false_iff]

/-- The numbers of a line are converted if they are decimal. -/
lemma exists_numeric_iff {line : PyStr} :
    (∃ numeric, ((innerFields line).filter (isDigits numerals)).mapM numerals.int =
        .ok numeric) ↔ DigitsDecimal numerals line := by
  constructor
  · rintro ⟨numeric, h⟩ field hfield hdigits
    obtain ⟨hne, hsolid⟩ := solid_of_mem_innerFields hfield
    obtain ⟨n, -, hn⟩ := exists_value_of_mem h (List.mem_filter.2 ⟨hfield, hdigits⟩)
    exact (int_ok_iff_isDecimal hne hsolid (isDigits_iff.1 hdigits).2).1 ⟨n, hn⟩
  · intro h
    refine exists_mapM_eq_ok fun field hmem => ?_
    obtain ⟨hfield, hdigits⟩ := List.mem_filter.1 hmem
    obtain ⟨hne, hsolid⟩ := solid_of_mem_innerFields hfield
    exact (int_ok_iff_isDecimal hne hsolid (isDigits_iff.1 hdigits).2).2 (h field hfield hdigits)

/-- What a line of the listing comes to. -/
lemma exists_lhaRow_iff {line : PyStr} :
    (∃ row, lhaRow numerals line = .ok row) ↔ (IsRow line → DigitsDecimal numerals line) := by
  unfold lhaRow
  split
  next hrow =>
    rw [← exists_numeric_iff]
    constructor
    · rintro ⟨row, h⟩ _
      obtain ⟨numeric, hnumeric, -⟩ := bind_eq_ok.1 h
      exact ⟨numeric, hnumeric⟩
    · intro h
      obtain ⟨numeric, hnumeric⟩ := h hrow
      dsimp only
      rw [hnumeric, ok_bind]
      split
      · exact ⟨none, rfl⟩
      · exact ⟨_, rfl⟩
  next hrow => exact iff_of_true ⟨none, rfl⟩ fun h => absurd h hrow

/-- The size of a row is printed and read back. -/
lemma declared_of_lhaRow {line : PyStr} {row : LhaRow} (h : lhaRow numerals line = .ok (some row)) :
    row.declared numerals = .ok row.size := by
  unfold lhaRow at h
  split at h
  · obtain ⟨numeric, hnumeric, h⟩ := bind_eq_ok.1 h
    split at h
    · cases h
    next size hsize =>
      obtain rfl := Option.some.inj (Except.ok.inj h)
      have hmem : size ∈ numeric := by
        rcases Option.or_eq_some_iff.1 hsize with hsize | ⟨-, hsize⟩
        · exact List.mem_of_getElem? hsize
        · exact List.mem_of_getElem? hsize
      obtain ⟨field, hfield, hint⟩ := exists_of_mem_mapM hnumeric hmem
      obtain ⟨hinner, hdigits⟩ := List.mem_filter.1 hfield
      obtain ⟨hne, hsolid⟩ := solid_of_mem_innerFields hinner
      obtain ⟨n, rfl, hcount⟩ := exists_decimal hne hsolid (isDigits_iff.1 hdigits).2 hint
      rw [LhaRow.declared, ofInt]
      dsimp only
      rw [Int.natAbs_natCast, if_neg (Nat.not_lt.2 hcount), if_neg (by omega), ok_bind]
      exact int_ofNat hcount
  · cases h

/-- The listing of lha is read, and the sizes are converted, if the digits in its rows are
decimal. -/
theorem lha_converts_iff (output : PyStr) :
    Converts env numerals .lha output ↔
      ∀ line ∈ splitLines output, IsRow line → DigitsDecimal numerals line := by
  constructor
  · rintro ⟨listed, hlisted, -⟩ line hline
    obtain ⟨rows, hrows, -⟩ := bind_eq_ok.1 ((if_pos rfl).symm.trans hlisted)
    obtain ⟨lines, hlines, -⟩ := bind_eq_ok.1 hrows
    obtain ⟨row, -, hrow⟩ := exists_value_of_mem hlines hline
    exact exists_lhaRow_iff.1 ⟨row, hrow⟩
  · intro h
    obtain ⟨rows, hrows⟩ := exists_mapM_eq_ok fun line hline =>
      (@exists_lhaRow_iff numerals line).2 (h line hline)
    have hparse : parseLhaListing numerals output = .ok rows.reduceOption := by
      rw [parseLhaListing, hrows]
      rfl
    refine ⟨rows.reduceOption.map fun row => ⟨row.name, row.directory, row.declared numerals⟩, ?_,
      fun member hmember _ _ => ?_⟩
    · rw [members, if_pos rfl, hparse]
      rfl
    · obtain ⟨row, hmem, rfl⟩ := List.mem_map.1 hmember
      obtain ⟨line, -, hline⟩ := exists_of_mem_mapM hrows (List.reduceOption_mem_iff.1 hmem)
      exact ⟨row.size, declared_of_lhaRow hline⟩

end Listings

end AVBox
