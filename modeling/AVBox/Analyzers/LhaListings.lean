import AVBox.Analyzers.SevenZipListings
import Mathlib.Data.List.Infix

/-!
# Listings of lha that are read as they were printed

The rows that `lha v` prints for its members, and what the parser makes of them.  The name of a row
stands behind the time stamp where the pattern finds it (`FoundByMethod`), or in the last column
where it finds nothing (`FoundByColumn`).
-/

namespace AVBox

open Fallible PyStr Numerals

namespace Listings

open Text

/-- The text is written in an alphabet. -/
def Among (alphabet : String) (text : PyStr) : Prop := ∀ c ∈ text, c ∈ ofString alphabet

lemma Among.all {alphabet : String} {text : PyStr} (h : Among alphabet text)
    {kind : Fin 0x110000 → Bool} (hkind : (ofString alphabet).all kind) : ∀ c ∈ text, kind c :=
  fun c hc => List.all_eq_true.1 hkind c (h c hc)

/-- A member as `lha v` prints it.  The method is the code between two dashes. -/
structure LhaMember where
  label : PyStr
  packed : ℕ
  size : ℕ
  ratio : PyStr
  code : PyStr
  crc : PyStr
  stamp : PyStr
  name : PyStr
  label_word : label ≠ [] ∧ ∀ c ∈ label, isSpace c = false
  ratio_word : ratio ≠ [] ∧ Among "0123456789.%*" ratio
  code_word : code.length = 3 ∧ Among "0123456789abcdefghijklmnopqrstuvwxyz" code
  crc_word : crc.length = 4 ∧ Among "0123456789abcdef" crc
  stamp_word : stamp.length = 12 ∧
    Among " :0123456789ABCDEFGHIJKLMNOPQRSTUVWXYZabcdefghijklmnopqrstuvwxyz" stamp
  line : ∀ c ∈ name, c.val ≠ 0x0A ∧ c.val ≠ 0x0D

namespace LhaMember

variable (member : LhaMember)

/-- The columns before the method. -/
def front : PyStr :=
  member.label.rightpad 22 0x20 ++ 0x20 :: ((ofNat member.packed).leftpad 7 0x20 ++
    0x20 :: ((ofNat member.size).leftpad 7 0x20 ++ 0x20 :: (member.ratio.leftpad 6 0x20 ++ [0x20])))

def method : PyStr := 0x2D :: (member.code ++ [0x2D])

/-- The columns from the method to the name. -/
def back : PyStr :=
  member.method ++ 0x20 :: (member.crc ++ 0x20 :: (member.stamp ++ [0x20]))

def row : PyStr := member.front ++ (member.back ++ member.name)

end LhaMember

/-- The rows, each on a line. -/
def printLha (listed : List LhaMember) : PyStr :=
  listed.flatMap fun member => member.row ++ [0x0A]

/-! ## The pattern -/

lemma consumes_lastColumn : Consumes 1 lastColumn := by
  refine Consumes.greedy (fun text rest h => ?_) isSpace
  split at h
  · cases h
  next hne =>
    obtain rfl := Option.some.inj h
    exact ⟨hne, List.suffix_rfl, Nat.le_refl _⟩

lemma consumes_behindStamp : Consumes 13 behindStamp := by
  intro text rest h
  rw [behindStamp] at h
  split at h
  · cases h
  next hlong =>
    obtain ⟨hne, hsuffix, hlength⟩ := consumes_lastColumn _ _ h
    rw [List.length_drop] at hlength
    exact ⟨hne, hsuffix.trans (List.drop_suffix 12 text), by omega⟩

lemma consumes_nameAt : Consumes 1 nameAt := by
  have hmethod : Consumes 16 behindMethod := by
    intro text rest h
    rcases text with _ | ⟨c, text⟩
    · cases h
    rw [behindMethod] at h
    split at h
    · obtain ⟨hne, hsuffix, hlength⟩ :=
        ((consumes_behindStamp.greedy isSpace).greedy (fun c => !isSpace c)).greedy isSpace _ _ h
      refine ⟨hne, hsuffix.trans (List.suffix_cons c text), ?_⟩
      rw [List.length_cons]
      omega
    · cases h
  intro line rest h
  rw [nameAt] at h
  split at h
  · obtain ⟨hne, hsuffix, hlength⟩ := hmethod.greedy (fun c => !isSpace c) _ _ h
    rw [List.length_drop] at hlength
    exact ⟨hne, hsuffix.trans (List.drop_suffix 3 line), by omega⟩
  · cases h

lemma searchName_cons (c : Fin 0x110000) (line : PyStr) :
    searchName (c :: line) = (nameAt (c :: line)).or (searchName line) := by
  rw [searchName, List.tails_cons, List.findSome?_cons, searchName]
  cases nameAt (c :: line) <;> rfl

lemma consumes_searchName : Consumes 1 searchName := by
  intro line rest h
  obtain ⟨tail, htail, hname⟩ := List.exists_of_findSome?_eq_some h
  have hsuffix := (List.mem_tails _ _).1 htail
  obtain ⟨hne, hrest, hlength⟩ := consumes_nameAt _ _ hname
  exact ⟨hne, hrest.trans hsuffix, hlength.trans hsuffix.length_le⟩

/-- The pattern begins with a dash. -/
lemma searchName_append {first : PyStr} (h : ∀ c ∈ first, c ≠ 0x2D) (rest : PyStr) :
    searchName (first ++ rest) = searchName rest := by
  induction first with
  | nil => rfl
  | cons c first ih =>
      obtain ⟨hc, hfirst⟩ := List.forall_mem_cons.1 h
      have hnone : nameAt (c :: (first ++ rest)) = none := by
        rw [nameAt, if_neg]
        rw [List.isPrefixOf_iff_prefix]
        exact fun hprefix => hc (List.cons_prefix_cons.1 hprefix).1.symm
      rw [List.cons_append, searchName_cons, hnone, Option.none_or, ih hfirst]

/-! ## The last column -/

lemma lastColumn_eq_none_iff {text : PyStr} :
    lastColumn text = none ↔ ∀ c rest, text = c :: rest → isSpace c → rest = [] := by
  rw [lastColumn, greedy_eq_none_iff]
  constructor
  · rintro h c rest rfl hc
    have hrun : 1 ≤ ((c :: rest).takeWhile isSpace).length := by
      rw [List.takeWhile_cons_of_pos hc, List.length_cons]
      omega
    have hnone := h 1 (Nat.le_refl 1) hrun
    split at hnone
    · next hrest => exact hrest
    · cases hnone
  · intro h k hk hcount
    rcases text with _ | ⟨c, rest⟩
    · rw [List.drop_nil, if_pos rfl]
    · have hc : isSpace c := by
        by_contra hc
        rw [List.takeWhile_cons_of_neg hc] at hcount
        exact absurd (hk.trans hcount) (by decide)
      obtain ⟨k, rfl⟩ := Nat.exists_eq_add_of_le' hk
      rw [h c rest rfl hc, List.drop_succ_cons, List.drop_nil, if_pos rfl]

/-- The last column is the name if the name makes no other one. -/
lemma lastColumn_cons_eq_some_iff {name : PyStr} :
    lastColumn (0x20 :: name) = some name ↔ name ≠ [] ∧ lastColumn name = none := by
  have hrun : ((0x20 :: name).takeWhile isSpace).length = (name.takeWhile isSpace).length + 1 := by
    rw [List.takeWhile_cons_of_pos (by decide), List.length_cons]
  constructor
  · intro h
    have hne := (consumes_lastColumn _ _ h).1
    refine ⟨hne, ?_⟩
    rw [lastColumn, greedy_eq_some_iff, hrun] at h
    obtain ⟨k, hk, -, hafter, hmore⟩ := h
    obtain rfl : k = 1 := by
      split at hafter
      · cases hafter
      · have hlength := congrArg List.length (Option.some.inj hafter)
        rw [List.length_drop, List.length_cons] at hlength
        have hpos := List.length_pos_of_ne_nil hne
        omega
    exact greedy_eq_none_iff.2 fun j hj hcount => hmore (j + 1) (by omega) (by omega)
  · rintro ⟨hne, hnone⟩
    rw [lastColumn, greedy_eq_none_iff] at hnone
    rw [lastColumn, greedy_eq_some_iff, hrun]
    refine ⟨1, Nat.le_refl 1, by omega, if_neg hne, fun j hj hcount => ?_⟩
    obtain ⟨j, rfl⟩ := Nat.exists_eq_add_of_le' (Nat.one_le_of_lt hj)
    exact hnone j (by omega) (by omega)

/-! ## The name behind the stamp -/

/-- The blanks behind the blank before the stamp. -/
def stampBlanks (member : LhaMember) : ℕ :=
  ((member.stamp ++ 0x20 :: member.name).takeWhile isSpace).length

/-- The pattern finds the name: it is not empty, and no blank but its last character is among as
many characters as there are blanks at the beginning of the stamp, or is the first one. -/
def FoundByMethod (member : LhaMember) : Prop :=
  ofString "lh" <+: member.code ∧ member.name ≠ [] ∧
    ∀ c ∈ member.name.dropLast.take (max 1 (stampBlanks member)), isSpace c = false

lemma lastColumn_drop_eq_none_iff {name : PyStr} {count : ℕ} :
    (∀ p < count, lastColumn (name.drop p) = none) ↔
      ∀ c ∈ name.dropLast.take count, isSpace c = false := by
  constructor
  · intro h c hc
    obtain ⟨p, hp⟩ := List.mem_iff_getElem?.1 hc
    rw [List.getElem?_take] at hp
    split at hp
    next hcount =>
      have hlast : p + 1 < name.length := by
        have := (List.getElem?_eq_some_iff.1 hp).1
        rw [List.length_dropLast] at this
        omega
      rw [List.getElem?_dropLast, if_pos (by omega)] at hp
      by_contra hblank
      have hdrop : name.drop p = c :: name.drop (p + 1) :=
        (List.drop_eq_getElem?_toList_append).trans (by rw [hp]; rfl)
      have hrest := lastColumn_eq_none_iff.1 (h p hcount) c _ hdrop
        (Bool.eq_true_of_not_eq_false hblank)
      rw [List.drop_eq_nil_iff] at hrest
      omega
    next => cases hp
  · intro h p hp
    refine lastColumn_eq_none_iff.2 fun c rest hdrop hblank => ?_
    by_contra hrest
    have hlength := congrArg List.length hdrop
    have hpos := List.length_pos_of_ne_nil hrest
    rw [List.length_drop, List.length_cons] at hlength
    have hc : name[p]? = some c := by
      rw [← List.head?_drop, hdrop]
      rfl
    have hmem : c ∈ name.dropLast.take count := by
      refine List.mem_iff_getElem?.2 ⟨p, ?_⟩
      rw [List.getElem?_take, if_pos hp, List.getElem?_dropLast, if_pos (by omega), hc]
    rw [h c hmem] at hblank
    cases hblank

/-- Behind the CRC the pattern takes the blanks before the stamp. -/
lemma greedy_behindStamp_iff {member : LhaMember} :
    greedy 1 behindStamp isSpace (0x20 :: (member.stamp ++ 0x20 :: member.name)) =
        some member.name ↔
      member.name ≠ [] ∧ ∀ p < max 1 (stampBlanks member),
        lastColumn (member.name.drop p) = none := by
  set text := member.stamp ++ 0x20 :: member.name with htext
  have hstamp := member.stamp_word.1
  have hlength : text.length = 13 + member.name.length := by
    rw [htext, List.length_append, List.length_cons, hstamp]
    omega
  have hrun : ((0x20 :: text).takeWhile isSpace).length = stampBlanks member + 1 := by
    rw [List.takeWhile_cons_of_pos (by decide), List.length_cons, stampBlanks]
  have hbehind : ∀ p, behindStamp ((0x20 :: text).drop (p + 2)) = none ↔
      lastColumn (member.name.drop p) = none := by
    intro p
    have hdrop : (text.drop (p + 1)).drop 12 = member.name.drop p := by
      rw [List.drop_drop, htext, List.drop_append, hstamp,
        List.drop_eq_nil_of_le (by rw [hstamp]; omega), List.nil_append]
      have hplace : p + 1 + 12 - 12 = p + 1 := by omega
      rw [hplace, List.drop_succ_cons]
    rw [List.drop_succ_cons, behindStamp, hdrop]
    split
    next hshort =>
      refine iff_of_true rfl (lastColumn_eq_none_iff.2 fun c rest hrest _ => ?_)
      have := congrArg List.length hrest
      rw [List.length_drop, List.length_cons] at this
      rw [List.length_drop, hlength] at hshort
      omega
    · exact Iff.rfl
  have hfirst : behindStamp ((0x20 :: text).drop 1) = lastColumn (0x20 :: member.name) := by
    rw [List.drop_succ_cons, List.drop_zero, behindStamp, if_neg (by omega), htext,
      List.drop_append, hstamp, List.drop_eq_nil_of_le (Nat.le_of_eq hstamp)]
    rfl
  rw [greedy_eq_some_iff, hrun]
  constructor
  · rintro ⟨k, hk, -, hname, hmore⟩
    obtain rfl : k = 1 := by
      have hconsumed := (consumes_behindStamp _ _ hname).2.2
      rw [List.length_drop, List.length_cons, hlength] at hconsumed
      omega
    rw [hfirst, lastColumn_cons_eq_some_iff] at hname
    refine ⟨hname.1, fun p hp => ?_⟩
    rcases Nat.eq_zero_or_pos p with rfl | hpos
    · exact hname.2
    · exact (hbehind p).1 (hmore (p + 2) (by omega) (by omega))
  · rintro ⟨hne, hnone⟩
    refine ⟨1, Nat.le_refl 1, by omega, ?_, fun j hj hcount => ?_⟩
    · rw [hfirst, lastColumn_cons_eq_some_iff]
      exact ⟨hne, hnone 0 (by omega)⟩
    · obtain ⟨p, rfl⟩ := Nat.exists_eq_add_of_le' hj
      exact (hbehind p).2 (hnone p (by omega))

lemma solid_of_among {alphabet : String} {text : PyStr} (h : Among alphabet text)
    (hkind : (ofString alphabet).all fun c => !isSpace c) : ∀ c ∈ text, isSpace c = false :=
  fun c hc => by simpa using h.all hkind c hc

lemma noDash_of_among {alphabet : String} {text : PyStr} (h : Among alphabet text)
    (hkind : (ofString alphabet).all fun c => c ≠ 0x2D) : ∀ c ∈ text, c ≠ 0x2D :=
  fun c hc => by simpa using h.all hkind c hc

/-- The pattern at the method. -/
lemma nameAt_back {member : LhaMember} (hcode : ofString "lh" <+: member.code) :
    nameAt (member.back ++ member.name) =
      greedy 1 behindStamp isSpace (0x20 :: (member.stamp ++ 0x20 :: member.name)) := by
  set stamped := 0x20 :: (member.stamp ++ 0x20 :: member.name) with hstamped
  obtain ⟨hthree, hletters⟩ := member.code_word
  obtain ⟨hfour, hdigits⟩ := member.crc_word
  have hsolid := solid_of_among hdigits (by decide +kernel)
  obtain ⟨rest, hrest⟩ := hcode
  obtain ⟨x, rfl⟩ : ∃ x, rest = [x] := List.length_eq_one_iff.1 (by
    rw [← hrest, List.length_append] at hthree
    have htwo : (ofString "lh").length = 2 := rfl
    omega)
  have hx : isSpace x = false ∧ x ≠ 0x2D := by
    have hmem : x ∈ member.code := by simp [← hrest]
    exact ⟨solid_of_among hletters (by decide +kernel) x hmem,
      noDash_of_among hletters (by decide +kernel) x hmem⟩
  have hback : member.back ++ member.name =
      ofString "-lh" ++ (x :: 0x2D :: 0x20 :: (member.crc ++ stamped)) := by
    rw [LhaMember.back, LhaMember.method, ← hrest, hstamped]
    simp only [List.append_assoc, List.cons_append, List.nil_append]
    rfl
  -- The CRC is one word between blanks.
  have hcrc : greedy 1 (greedy 1 behindStamp isSpace) (fun c => !isSpace c)
      (member.crc ++ stamped) = greedy 1 behindStamp isSpace stamped := by
    have hrun : (member.crc ++ stamped).takeWhile (fun c => !isSpace c) = member.crc := by
      rw [List.takeWhile_append_of_pos fun c hc => by simp [hsolid c hc], hstamped,
        List.takeWhile_cons_of_neg (by decide), List.append_nil]
    rw [greedy_of_only member.crc.length (by omega) (by rw [hrun]), List.drop_left]
    intro k hk hcount hne
    rw [hrun] at hcount
    refine greedy_of_head fun c hc => hsolid c ?_
    rw [List.drop_append_of_le_length hcount, List.head?_append_of_ne_nil _ (by
      rw [Ne, List.drop_eq_nil_iff]
      omega)] at hc
    exact List.mem_of_mem_drop (List.mem_of_mem_head? hc)
  have hblank : greedy 1 (greedy 1 (greedy 1 behindStamp isSpace) fun c => !isSpace c) isSpace
      (0x20 :: (member.crc ++ stamped)) = greedy 1 behindStamp isSpace stamped := by
    have hrun : (0x20 :: (member.crc ++ stamped)).takeWhile isSpace = [0x20] := by
      rcases hhead : member.crc with _ | ⟨c, crc⟩
      · rw [hhead] at hfour
        cases hfour
      · rw [List.takeWhile_cons_of_pos (by decide), List.cons_append,
          List.takeWhile_cons_of_neg (by simp [hsolid c (by simp [hhead])])]
    rw [greedy_of_only 1 (Nat.le_refl 1) (by rw [hrun]; rfl), List.drop_succ_cons,
      List.drop_zero, hcrc]
    intro k hk hcount hne
    rw [hrun, List.length_singleton] at hcount
    omega
  have hprefix : (ofString "-lh").isPrefixOf (member.back ++ member.name) := by
    rw [hback, List.isPrefixOf_iff_prefix]
    exact List.prefix_append _ _
  have hdrop : (member.back ++ member.name).drop 3 =
      x :: 0x2D :: 0x20 :: (member.crc ++ stamped) := by
    rw [hback]
    rfl
  have hrun : (x :: 0x2D :: 0x20 :: (member.crc ++ stamped)).takeWhile (fun c => !isSpace c) =
      [x, 0x2D] := by
    rw [List.takeWhile_cons_of_pos (by simp [hx.1]), List.takeWhile_cons_of_pos (by decide),
      List.takeWhile_cons_of_neg (by decide)]
  have hdash : behindMethod (0x2D :: 0x20 :: (member.crc ++ stamped)) =
      greedy 1 behindStamp isSpace stamped := by
    rw [behindMethod, if_pos (by decide), hblank]
  rw [nameAt, if_pos hprefix, hdrop, greedy_of_only 1 (Nat.zero_le 1)
    (by rw [hrun]; simp), List.drop_succ_cons, List.drop_zero, hdash]
  intro k _ hcount hne
  rw [hrun] at hcount
  obtain rfl | rfl : k = 0 ∨ k = 2 := by
    have : k ≤ 2 := hcount
    omega
  · have hvalue : ¬x.val = 0x2D := fun heq => hx.2 (Fin.ext heq)
    rw [List.drop_zero, behindMethod, if_neg hvalue]
  · rw [List.drop_succ_cons, List.drop_succ_cons, List.drop_zero, behindMethod,
      if_neg (by decide)]

lemma nameAt_back_of_not {member : LhaMember} (hcode : ¬ofString "lh" <+: member.code) :
    nameAt (member.back ++ member.name) = none := by
  have hpattern : ofString "-lh" = 0x2D :: ofString "lh" := by decide +kernel
  rw [nameAt, if_neg]
  rw [List.isPrefixOf_iff_prefix, LhaMember.back, LhaMember.method, hpattern, List.cons_append,
    List.cons_append, List.append_assoc, List.append_assoc]
  intro hprefix
  have hletters := (List.cons_prefix_cons.1 hprefix).2
  refine hcode (List.prefix_of_prefix_length_le hletters (List.prefix_append _ _) ?_)
  rw [member.code_word.1]
  decide

/-! ## The name in the last column -/

/-- The pattern finds nothing, and the name is what stands in the last column. -/
def FoundByColumn (member : LhaMember) : Prop :=
  (¬ofString "lh" <+: member.code ∨ member.name = []) ∧ searchName member.name = none ∧
    (∀ c ∈ (member.front ++ member.back).drop 68, isSpace c) ∧ strip member.name = member.name

lemma filter_strip (text : PyStr) :
    (strip text).filter (fun c => !isSpace c) = text.filter fun c => !isSpace c := by
  have hdrop : ∀ text : PyStr, (text.dropWhile isSpace).filter (fun c => !isSpace c) =
      text.filter fun c => !isSpace c := by
    intro text
    induction text with
    | nil => rfl
    | cons c text ih =>
        by_cases hc : isSpace c
        · rw [List.dropWhile_cons_of_pos hc, ih, List.filter_cons_of_neg (by simp [hc])]
        · rw [List.dropWhile_cons_of_neg hc]
  rw [strip, rstrip, rstripOf, List.filter_reverse, hdrop, List.filter_reverse,
    List.reverse_reverse, hdrop]

lemma strip_append_eq_iff {before name : PyStr} :
    strip (before ++ name) = name ↔ (∀ c ∈ before, isSpace c) ∧ strip name = name := by
  have hblank : (∀ c ∈ before, isSpace c) → strip (before ++ name) = strip name := by
    intro h
    induction before with
    | nil => rfl
    | cons c before ih =>
        obtain ⟨hc, hbefore⟩ := List.forall_mem_cons.1 h
        rw [List.cons_append, strip_cons hc, ih hbefore]
  constructor
  · intro h
    have hbefore : ∀ c ∈ before, isSpace c := by
      -- What is no blank is kept, and all of it is in the name.
      have hkept := filter_strip (before ++ name)
      rw [h, List.filter_append, List.self_eq_append_left, List.filter_eq_nil_iff] at hkept
      exact fun c hc => by simpa using hkept c hc
    exact ⟨hbefore, (hblank hbefore).symm.trans h⟩
  · rintro ⟨hbefore, hname⟩
    rw [hblank hbefore, hname]

lemma length_front_back (member : LhaMember) : 68 ≤ (member.front ++ member.back).length := by
  have hlabel : 22 ≤ (member.label.rightpad 22 0x20).length := by
    rw [List.length_rightpad]
    exact le_max_left ..
  have hpad : ∀ (n : ℕ) (text : PyStr), n ≤ (text.leftpad n 0x20).length := by
    intro n text
    rw [List.length_leftpad]
    exact le_max_left ..
  have hpacked := hpad 7 (ofNat member.packed)
  have hsize := hpad 7 (ofNat member.size)
  have hratio := hpad 6 member.ratio
  have hcode := member.code_word.1
  have hcrc := member.crc_word.1
  have hstamp := member.stamp_word.1
  simp only [LhaMember.front, LhaMember.back, LhaMember.method, List.length_append,
    List.length_cons, List.length_nil]
  omega

/-- The columns before the method hold no dash. -/
lemma noDash_front {member : LhaMember} (hlabel : member.label = ofString "[generic]") :
    ∀ c ∈ member.front, c ≠ 0x2D := by
  have hnat : ∀ (n : ℕ), ∀ c ∈ ofNat n, c ≠ 0x2D := by
    intro n c hc heq
    have hdigit := digit_of_mem_ofNat hc
    rw [heq] at hdigit
    exact absurd hdigit (by decide)
  have hword : ∀ c ∈ member.label, c ≠ 0x2D := by
    have hall : (ofString "[generic]").all (fun c => decide (c ≠ 0x2D)) = true := by
      decide +kernel
    intro c hc
    rw [hlabel] at hc
    exact of_decide_eq_true (List.all_eq_true.1 hall c hc)
  have hratio := noDash_of_among member.ratio_word.2 (by decide +kernel)
  have hblanks : ∀ (n : ℕ) (c : Fin 0x110000), c ∈ List.replicate n 0x20 → c ≠ 0x2D := by
    intro n c hc heq
    rw [List.eq_of_mem_replicate hc] at heq
    exact absurd heq (by decide)
  intro c hc
  simp only [LhaMember.front, List.rightpad, List.leftpad, List.mem_append, List.mem_cons,
    List.not_mem_nil, or_false] at hc
  rcases hc with (hc | hc) | rfl | (hc | hc) | rfl | (hc | hc) | rfl | (hc | hc) | rfl
  · exact hword c hc
  · exact hblanks _ c hc
  · decide
  · exact hblanks _ c hc
  · exact hnat _ c hc
  · decide
  · exact hblanks _ c hc
  · exact hnat _ c hc
  · decide
  · exact hblanks _ c hc
  · exact hratio c hc
  · decide

/-- The pattern matches at the method or within the name. -/
lemma searchName_row {member : LhaMember} (hlabel : member.label = ofString "[generic]") :
    searchName member.row =
      (nameAt (member.back ++ member.name)).or (searchName member.name) := by
  have hcode := noDash_of_among member.code_word.2 (by decide +kernel)
  have hcrc := noDash_of_among member.crc_word.2 (by decide +kernel)
  have hstamp := noDash_of_among member.stamp_word.2 (by decide +kernel)
  have hback : member.back ++ member.name =
      0x2D :: (member.code ++ 0x2D :: ((0x20 :: (member.crc ++ 0x20 :: (member.stamp ++ [0x20]))) ++
        member.name)) := by
    simp only [LhaMember.back, LhaMember.method, List.append_assoc, List.cons_append,
      List.nil_append]
  have hcolumns : ∀ c ∈ 0x20 :: (member.crc ++ 0x20 :: (member.stamp ++ [0x20])), c ≠ 0x2D := by
    intro c hc
    simp only [List.mem_cons, List.mem_append, List.not_mem_nil, or_false] at hc
    rcases hc with rfl | hc | rfl | hc | rfl
    · decide
    · exact hcrc c hc
    · decide
    · exact hstamp c hc
    · decide
  have hdash : ∀ rest, nameAt (0x2D :: 0x20 :: rest) = none := by
    intro rest
    rw [nameAt, if_neg]
    rw [List.isPrefixOf_iff_prefix]
    exact fun hprefix => absurd (List.cons_prefix_cons.1 (List.cons_prefix_cons.1 hprefix).2).1
      (by decide)
  rw [LhaMember.row, searchName_append (noDash_front hlabel), hback, searchName_cons,
    searchName_append hcode, searchName_cons, List.cons_append, hdash, Option.none_or]
  exact congrArg (Option.or _) (searchName_append hcolumns member.name)

/-- `match.group(1) if match else line[68:].strip()` -/
def nameOf (line : PyStr) : PyStr := (searchName line).getD (strip (line.drop 68))

lemma nameOf_row_iff {member : LhaMember} (hlabel : member.label = ofString "[generic]") :
    nameOf member.row = member.name ↔ FoundByMethod member ∨ FoundByColumn member := by
  have hcolumn : member.row.drop 68 = (member.front ++ member.back).drop 68 ++ member.name := by
    rw [LhaMember.row, ← List.append_assoc,
      List.drop_append_of_le_length (length_front_back member)]
  have hwithin : ∀ rest, searchName member.name = some rest → rest ≠ member.name := by
    intro rest hrest heq
    have hconsumed := (consumes_searchName _ _ hrest).2.2
    rw [heq] at hconsumed
    omega
  have hfallback : (¬ofString "lh" <+: member.code ∨ member.name = []) →
      ((searchName member.name).getD
        (strip ((member.front ++ member.back).drop 68 ++ member.name)) = member.name ↔
        FoundByColumn member) := by
    intro hmethod
    rw [FoundByColumn, and_iff_right hmethod]
    rcases hsearch : searchName member.name with _ | rest
    · rw [Option.getD_none, strip_append_eq_iff]
      exact (and_iff_right rfl).symm
    · exact iff_of_false (hwithin rest hsearch) fun h => by cases h.1
  rw [nameOf, searchName_row hlabel, hcolumn]
  by_cases hcode : ofString "lh" <+: member.code
  · have hmethod : nameAt (member.back ++ member.name) = some member.name ↔
        FoundByMethod member := by
      rw [nameAt_back hcode, greedy_behindStamp_iff, lastColumn_drop_eq_none_iff]
      exact (and_iff_right hcode).symm
    rcases hname : nameAt (member.back ++ member.name) with _ | rest
    · -- Behind the stamp any name but the empty one makes a column.
      have hempty : member.name = [] := by
        by_contra hne
        rw [nameAt_back hcode, greedy_eq_none_iff] at hname
        have hone := hname 1 (Nat.le_refl 1) (by
          rw [List.takeWhile_cons_of_pos (by decide), List.length_cons]
          omega)
        rw [List.drop_succ_cons, List.drop_zero, behindStamp, if_neg (by
          rw [List.length_append, member.stamp_word.1]
          omega), List.drop_append, member.stamp_word.1,
          List.drop_eq_nil_of_le (Nat.le_of_eq member.stamp_word.1)] at hone
        exact hne (lastColumn_eq_none_iff.1 hone 0x20 member.name rfl (by decide))
      rw [Option.none_or, hfallback (.inr hempty)]
      exact (or_iff_right fun h => h.2.1 hempty).symm
    · rw [Option.some_or, Option.getD_some, ← hmethod, hname, Option.some_inj]
      refine (or_iff_left fun h => ?_).symm
      -- The pattern finds no empty name, and it is at the method.
      rcases h.1 with hother | hempty
      · exact hother hcode
      · rw [nameAt_back hcode] at hname
        obtain ⟨hne, -, hconsumed⟩ := consumes_behindStamp.greedy isSpace _ _ hname
        have hpos := List.length_pos_of_ne_nil hne
        rw [List.length_cons, List.length_append, List.length_cons, member.stamp_word.1,
          hempty, List.length_nil] at hconsumed
        omega
  · rw [nameAt_back_of_not hcode, Option.none_or, hfallback (.inl hcode)]
    exact (or_iff_right fun h => hcode h.1).symm

/-! ## The fields -/

lemma split_append_space (first rest : PyStr) :
    split (first ++ 0x20 :: rest) = split first ++ split rest :=
  words_append_blank (by decide) first rest

lemma split_word {word : PyStr} (hne : word ≠ []) (h : ∀ c ∈ word, isSpace c = false) :
    split word = [word] := words_solid h hne

lemma split_leftpad {word : PyStr} (n : ℕ) (hne : word ≠ []) (h : ∀ c ∈ word, isSpace c = false) :
    split (word.leftpad n 0x20) = [word] := by
  rw [List.leftpad, split, words_blank_append fun c hc => by
    rw [List.eq_of_mem_replicate hc]
    decide]
  exact words_solid h hne

lemma split_rightpad {word : PyStr} (n : ℕ) (hne : word ≠ []) (h : ∀ c ∈ word, isSpace c = false) :
    split (word.rightpad n 0x20) = [word] := by
  rw [List.rightpad]
  rcases n - word.length with _ | count
  · rw [List.replicate_zero, List.append_nil]
    exact words_solid h hne
  · have hblank : split (List.replicate count 0x20) = [] := by
      have hblanks : ∀ c ∈ List.replicate count (0x20 : Fin 0x110000), isSpace c := fun c hc => by
        rw [List.eq_of_mem_replicate hc]
        decide
      have hsplit := words_blank_append hblanks []
      rw [List.append_nil] at hsplit
      exact hsplit
    rw [List.replicate_succ, split_append_space, hblank, List.append_nil]
    exact words_solid h hne

/-- The fields of a row. -/
lemma split_row (member : LhaMember) : split member.row =
    member.label :: ofNat member.packed :: ofNat member.size :: member.ratio :: member.method ::
      member.crc :: (split member.stamp ++ split member.name) := by
  have hratio := solid_of_among member.ratio_word.2 (by decide +kernel)
  have hcode := solid_of_among member.code_word.2 (by decide +kernel)
  have hcrc := solid_of_among member.crc_word.2 (by decide +kernel)
  have hcrcNe : member.crc ≠ [] := by
    intro hnil
    have hfour := member.crc_word.1
    rw [hnil] at hfour
    cases hfour
  have hmethodNe : member.method ≠ [] := List.cons_ne_nil _ _
  have hmethod : ∀ c ∈ member.method, isSpace c = false := by
    intro c hc
    simp only [LhaMember.method, List.mem_cons, List.mem_append, List.not_mem_nil, or_false] at hc
    rcases hc with rfl | hc | rfl
    · decide
    · exact hcode c hc
    · decide
  have hrow : member.row = member.label.rightpad 22 0x20 ++ 0x20 ::
      ((ofNat member.packed).leftpad 7 0x20 ++ 0x20 :: ((ofNat member.size).leftpad 7 0x20 ++
        0x20 :: (member.ratio.leftpad 6 0x20 ++ 0x20 :: (member.method ++ 0x20 ::
          (member.crc ++ 0x20 :: (member.stamp ++ 0x20 :: member.name)))))) := by
    simp only [LhaMember.row, LhaMember.front, LhaMember.back, List.append_assoc,
      List.cons_append, List.nil_append]
  rw [hrow, split_append_space, split_append_space, split_append_space, split_append_space,
    split_append_space, split_append_space, split_append_space,
    split_rightpad 22 member.label_word.1 member.label_word.2,
    split_leftpad 7 (ofNat_ne_nil _) (solid_ofNat _), split_leftpad 7 (ofNat_ne_nil _)
      (solid_ofNat _), split_leftpad 6 member.ratio_word.1 hratio,
    split_word hmethodNe hmethod, split_word hcrcNe hcrc]
  rfl

lemma innerFields_row (member : LhaMember) : ∃ others,
    innerFields member.row = ofNat member.packed :: ofNat member.size :: others := by
  rw [innerFields, split_row, List.drop_succ_cons, List.drop_zero, List.dropLast_cons_of_ne_nil
    (by simp), List.dropLast_cons_of_ne_nil (by simp)]
  exact ⟨_, rfl⟩

variable {numerals : Numerals}

/-- What a row with decimal digits is read as. -/
lemma lhaRow_row {member : LhaMember} (hlabel : member.label = ofString "[generic]")
    (hdecimal : DigitsDecimal numerals member.row) : ∃ method directory,
    lhaRow numerals member.row =
      .ok (some ⟨method, member.size, nameOf member.row, directory⟩) := by
  obtain ⟨others, hinner⟩ := innerFields_row member
  have hrow : (split member.row).length ≥ 5 ∧
      (split member.row).head? = some (ofString "[generic]") := by
    rw [split_row, hlabel]
    exact ⟨by simp, rfl⟩
  have hdigits : ∀ n, isDigits numerals (ofNat n) = true := fun n =>
    isDigits_iff.2 ⟨ofNat_ne_nil n, fun c hc => isDigit_of_mem_ofNat hc⟩
  have hsize : numerals.int (ofNat member.size) = .ok member.size :=
    int_ofNat (hdecimal _ (by simp [hinner]) (hdigits _)).2
  obtain ⟨numeric, hnumeric⟩ := exists_numeric_iff.2 hdecimal
  have hsecond : numeric[1]? = some (member.size : ℤ) := by
    rw [hinner, List.filter_cons_of_pos (hdigits _), List.filter_cons_of_pos (hdigits _),
      mapM_eq_ok_iff] at hnumeric
    cases hnumeric with
    | cons _ hrest =>
        cases hrest with
        | cons hvalue _ =>
            obtain rfl := Except.ok.inj (hsize.symm.trans hvalue)
            rfl
  rw [lhaRow, if_pos hrow]
  dsimp only
  rw [hnumeric, ok_bind, hsecond]
  exact ⟨_, _, rfl⟩

/-! ## The listing -/

/-- A member that is read as it was printed. -/
structure LhaReads (numerals : Numerals) (member : LhaMember) : Prop where
  label : member.label = ofString "[generic]"
  unbroken : Unbroken member.name
  decimal : DigitsDecimal numerals member.row
  found : FoundByMethod member ∨ FoundByColumn member

lemma name_of_lhaRow {line : PyStr} {row : LhaRow} (h : lhaRow numerals line = .ok (some row)) :
    IsRow line ∧ row.name = nameOf line := by
  unfold lhaRow at h
  split at h
  next hrow =>
    obtain ⟨numeric, -, h⟩ := bind_eq_ok.1 h
    split at h
    · cases h
    · obtain rfl := Option.some.inj (Except.ok.inj h)
      exact ⟨hrow, rfl⟩
  next => cases h

lemma lha_reads_iff {member : LhaMember} (hunbroken : Unbroken member.name) :
    (∃ row, lhaRow numerals member.row = .ok (some row) ∧
        (row.name, row.declared numerals) = (member.name, .ok (member.size : ℤ))) ↔
      LhaReads numerals member := by
  constructor
  · rintro ⟨row, hread, heq⟩
    obtain ⟨hrow, hname⟩ := name_of_lhaRow hread
    have hlabel : member.label = ofString "[generic]" := by
      have hhead := hrow.2
      rw [split_row] at hhead
      exact Option.some.inj hhead
    refine ⟨hlabel, hunbroken, exists_lhaRow_iff.1 ⟨_, hread⟩ hrow, (nameOf_row_iff hlabel).1 ?_⟩
    rw [← hname]
    exact (Prod.mk.inj heq).1
  · intro h
    obtain ⟨method, directory, hread⟩ := lhaRow_row h.label h.decimal
    refine ⟨_, hread, ?_⟩
    rw [declared_of_lhaRow hread]
    exact congrArg (·, _) ((nameOf_row_iff h.label).2 h.found)

lemma isSpace_of_isLineBreak {c : Fin 0x110000} (h : isLineBreak c) : isSpace c := by
  simp only [isLineBreak, List.mem_cons, List.not_mem_nil, or_false, decide_eq_true_eq] at h
  simp only [isSpace, Bool.or_eq_true, Bool.and_eq_true, beq_iff_eq, decide_eq_true_eq]
  omega

lemma unbroken_of_solid {text : PyStr} (h : ∀ c ∈ text, isSpace c = false) : Unbroken text := by
  intro c hc
  by_contra hbreak
  have hspace := isSpace_of_isLineBreak (Bool.eq_true_of_not_eq_false hbreak)
  rw [h c hc] at hspace
  cases hspace

lemma unbroken_row {member : LhaMember} (h : Unbroken member.name) : Unbroken member.row := by
  have hblank : Unbroken [0x20] := unbroken_of_all (by decide)
  have hblanks : ∀ n, Unbroken (List.replicate n 0x20) := by
    intro n c hc
    rw [List.eq_of_mem_replicate hc]
    decide
  have hdash : Unbroken [0x2D] := unbroken_of_all (by decide)
  have hstampKind := @Among.all _ _ member.stamp_word.2 (fun c => !isLineBreak c)
    (by decide +kernel)
  have hstamp : Unbroken member.stamp := fun c hc => by simpa using hstampKind c hc
  have hword : ∀ {alphabet : String} {text : PyStr}, Among alphabet text →
      (ofString alphabet).all (fun c => !isSpace c) → Unbroken text :=
    fun htext hkind => unbroken_of_solid (solid_of_among htext hkind)
  have hnat : ∀ n, Unbroken (ofNat n) := fun n => unbroken_of_solid (solid_ofNat n)
  have hfront : Unbroken member.front :=
    ((unbroken_of_solid member.label_word.2).append (hblanks _)).append <| hblank.append <|
      ((hblanks _).append (hnat _)).append <| hblank.append <|
        ((hblanks _).append (hnat _)).append <| hblank.append <|
          ((hblanks _).append (hword member.ratio_word.2 (by decide +kernel))).append hblank
  have hback : Unbroken member.back :=
    (hdash.append ((hword member.code_word.2 (by decide +kernel)).append hdash)).append <|
      hblank.append <| (hword member.crc_word.2 (by decide +kernel)).append <|
        hblank.append <| hstamp.append hblank
  exact hfront.append (hback.append h)

/-- The names that a listing is read as hold no line breaks. -/
lemma unbroken_of_lists {output : PyStr} {expected : List (PyStr × ℕ)}
    (h : Lists numerals .lha output expected) {entry : PyStr × ℕ} (hentry : entry ∈ expected) :
    Unbroken entry.1 := by
  obtain ⟨listed, hlisted, heq⟩ := h
  obtain ⟨rows, hrows, hmembers⟩ := bind_eq_ok.1 ((if_pos rfl).symm.trans hlisted)
  obtain rfl := Except.ok.inj hmembers
  obtain ⟨lines, hlines, hreduced⟩ := bind_eq_ok.1 hrows
  obtain rfl := Except.ok.inj hreduced
  have hmem : (entry.1, .ok (entry.2 : ℤ)) ∈
      (lines.reduceOption.map fun row : LhaRow =>
        (⟨row.name, row.directory, row.declared numerals⟩ : ExternalMember)).map
          fun member => (member.name, member.declared) := by
    rw [heq]
    exact List.mem_map_of_mem (f := fun entry : PyStr × ℕ =>
      (entry.1, (.ok (entry.2 : ℤ) : Except Exc ℤ))) hentry
  rw [List.map_map] at hmem
  obtain ⟨row, hrow, hname⟩ := List.mem_map.1 hmem
  obtain ⟨line, hline, hread⟩ := exists_of_mem_mapM hlines (List.reduceOption_mem_iff.1 hrow)
  have hnameOf : entry.1 = nameOf line :=
    (Prod.mk.inj hname).1.symm.trans (name_of_lhaRow hread).2
  intro c hc
  refine unbroken_of_mem_splitLines hline c ?_
  rw [hnameOf, nameOf] at hc
  rcases hsearch : searchName line with _ | rest
  · rw [hsearch] at hc
    exact List.mem_of_mem_drop (mem_of_mem_strip hc)
  · rw [hsearch] at hc
    exact (consumes_searchName _ _ hsearch).2.1.subset hc

lemma splitLines_printLha {listed : List LhaMember}
    (h : ∀ member ∈ listed, Unbroken member.name) :
    splitLines (printLha listed) = listed.map LhaMember.row := by
  have hprint : printLha listed =
      (listed.map LhaMember.row).flatMap fun line => line ++ [0x0A] := by
    rw [printLha, List.flatMap_map]
  rw [hprint]
  refine splitLines_lines fun line hline => ?_
  obtain ⟨member, hmember, rfl⟩ := List.mem_map.1 hline
  exact unbroken_row (h member hmember)

/-- What a line is read as, if it does not raise. -/
def readLine (numerals : Numerals) (line : PyStr) : Option LhaRow :=
  (lhaRow numerals line).toOption.join

lemma mapM_lhaRow_iff {lines : List PyStr} {rows : List (Option LhaRow)} :
    lines.mapM (lhaRow numerals) = .ok rows ↔ rows = lines.map (readLine numerals) ∧
      ∀ line ∈ lines, lhaRow numerals line = .ok (readLine numerals line) := by
  refine mapM_eq_ok_iff_map fun line _ row hrow => ?_
  rw [readLine, hrow]
  cases row <;> rfl

/-- The lines are read one by one. -/
lemma lists_iff_lines {listed : List LhaMember}
    (h : ∀ member ∈ listed, Unbroken member.name) :
    Lists numerals .lha (printLha listed)
        (listed.map fun member => (member.name, member.size)) ↔
      ∀ member ∈ listed, ∃ row, lhaRow numerals member.row = .ok (some row) ∧
        (row.name, row.declared numerals) = (member.name, .ok (member.size : ℤ)) := by
  have hrows : ∀ rows : List (Option LhaRow),
      rows = (listed.map LhaMember.row).map (readLine numerals) →
      ((rows.reduceOption.map fun row : LhaRow =>
          (⟨row.name, row.directory, row.declared numerals⟩ : ExternalMember)).map
            (fun member => (member.name, member.declared)) =
          (listed.map fun member => (member.name, member.size)).map
            (fun entry => (entry.1, .ok (entry.2 : ℤ))) ↔
        ∀ member ∈ listed, (readLine numerals member.row).map
          (fun row => (row.name, row.declared numerals)) =
            some (member.name, .ok (member.size : ℤ))) := by
    rintro rows rfl
    rw [List.map_map, List.map_map, List.map_map, List.reduceOption, List.filterMap_map,
      List.map_filterMap, List.filterMap_eq_map_iff_forall_eq_some]
    rfl
  constructor
  · rintro ⟨members, hmembers, heq⟩ member hmember
    obtain ⟨rows, hparse, hlisted⟩ := bind_eq_ok.1 ((if_pos rfl).symm.trans hmembers)
    obtain rfl := Except.ok.inj hlisted
    obtain ⟨lines, hlines, hreduced⟩ := bind_eq_ok.1 hparse
    obtain rfl := Except.ok.inj hreduced
    rw [splitLines_printLha h, mapM_lhaRow_iff] at hlines
    have hread := (hrows lines hlines.1).1 heq member hmember
    obtain ⟨row, hrow, hname⟩ := Option.map_eq_some_iff.1 hread
    refine ⟨row, ?_, hname⟩
    rw [hlines.2 _ (List.mem_map_of_mem hmember), hrow]
  · intro hread
    have hok : ∀ line ∈ listed.map LhaMember.row,
        lhaRow numerals line = .ok (readLine numerals line) := by
      intro line hline
      obtain ⟨member, hmember, rfl⟩ := List.mem_map.1 hline
      obtain ⟨row, hrow, -⟩ := hread member hmember
      rw [readLine, hrow]
      rfl
    have hlines := mapM_lhaRow_iff.2 ⟨rfl, hok⟩
    have hparse : parseLhaListing numerals (printLha listed) =
        .ok ((listed.map LhaMember.row).map (readLine numerals)).reduceOption := by
      rw [parseLhaListing, splitLines_printLha h, hlines]
      rfl
    refine ⟨_, ?_, (hrows _ rfl).2 fun member hmember => ?_⟩
    · rw [members, if_pos rfl, hparse]
      rfl
    · obtain ⟨row, hrow, hname⟩ := hread member hmember
      rw [readLine, hrow]
      exact congrArg some hname

/-- The printed listing is read as it was printed if each member is. -/
theorem lha_lists_iff (listed : List LhaMember) :
    Lists numerals .lha (printLha listed)
        (listed.map fun member => (member.name, member.size)) ↔
      ∀ member ∈ listed, LhaReads numerals member := by
  constructor
  · intro h
    have hunbroken : ∀ member ∈ listed, Unbroken member.name := fun member hmember =>
      unbroken_of_lists h (List.mem_map_of_mem (f := fun member : LhaMember =>
        (member.name, member.size)) hmember)
    exact fun member hmember => (lha_reads_iff (hunbroken member hmember)).1
      ((lists_iff_lines hunbroken).1 h member hmember)
  · intro h
    have hunbroken : ∀ member ∈ listed, Unbroken member.name := fun member hmember =>
      (h member hmember).unbroken
    exact (lists_iff_lines hunbroken).2 fun member hmember =>
      (lha_reads_iff (hunbroken member hmember)).2 (h member hmember)

end Listings

end AVBox
