import AVBox.Analyzers.LhaListings

/-!
# What the listings of external archives lose

Both parsers together: the outputs for which nothing is raised, and the members that are read as
they were printed.
-/

namespace AVBox

open Fallible PyStr Numerals

namespace Listings

open Text

lemma solid_of_all {text : PyStr} (h : text.all fun c => !isSpace c) :
    ∀ c ∈ text, isSpace c = false :=
  fun c hc => by simpa using List.all_eq_true.1 h c hc

lemma line_of_all {name : PyStr} (h : name.all fun c => c.val != 0x0A && c.val != 0x0D) :
    ∀ c ∈ name, c.val ≠ 0x0A ∧ c.val ≠ 0x0D :=
  fun c hc => by simpa using List.all_eq_true.1 h c hc

lemma Among.of_all {alphabet : String} {text : PyStr}
    (h : text.all fun c => (ofString alphabet).contains c) : Among alphabet text :=
  fun c hc => by simpa using List.all_eq_true.1 h c hc

lemma DigitsDecimal.of_all {numerals : Numerals} {line : PyStr}
    (h : (innerFields line).all fun field => !isDigits numerals field ||
      (field.all (fun c => (numerals.decimal c).isSome) && decide (field.length ≤ 4300))) :
    DigitsDecimal numerals line := by
  intro field hfield hdigits
  have := List.all_eq_true.1 h field hfield
  rw [hdigits, Bool.not_true, Bool.false_or, Bool.and_eq_true, List.all_eq_true,
    decide_eq_true_eq] at this
  exact this

/-- Nothing is raised for an output exactly if the sizes in it are numbers, for lha also the digits
in the words of a name.  A printed listing is read as it was printed exactly if each of its members
is. -/
theorem listings_read_iff (env : ExtractEnv) (numerals : Numerals) {kind : Kind}
    (hkind : kind ≠ .lha) :
    (∀ output, Converts env numerals kind output ↔
        ∀ block ∈ blocks output, ∀ size, Extracted env block size →
          size = [] ∨ numerals.IsNumber size) ∧
      (∀ output, Converts env numerals .lha output ↔
        ∀ line ∈ splitLines output, IsRow line → DigitsDecimal numerals line) ∧
      (∀ listed : List SevenZipMember, Lists numerals kind (printSevenZip listed)
          (listed.map fun member => (member.name, member.size)) ↔
        ∀ member ∈ listed, SevenZipReads member) ∧
      ∀ listed : List LhaMember, Lists numerals .lha (printLha listed)
          (listed.map fun member => (member.name, member.size)) ↔
        ∀ member ∈ listed, LhaReads numerals member :=
  ⟨sevenZip_converts_iff hkind, lha_converts_iff, sevenZip_lists_iff hkind, lha_lists_iff⟩

/-! ## Members that are read, and members that are not -/

/-- A member with a name of two words, with the method of lha. -/
def genericMember : LhaMember where
  label := ofString "[generic]"
  packed := 18
  size := 20
  ratio := ofString "90.0%"
  code := ofString "lh5"
  crc := ofString "f4e8"
  stamp := ofString "Aug 21 12:00"
  name := ofString "hello file.txt"
  label_word := ⟨by decide +kernel, solid_of_all (by decide +kernel)⟩
  ratio_word := ⟨by decide +kernel, .of_all (by decide +kernel)⟩
  code_word := ⟨by decide +kernel, .of_all (by decide +kernel)⟩
  crc_word := ⟨by decide +kernel, .of_all (by decide +kernel)⟩
  stamp_word := ⟨by decide +kernel, .of_all (by decide +kernel)⟩
  line := line_of_all (by decide +kernel)

def amigaMember : LhaMember :=
  { genericMember with
    label := ofString "[Amiga]"
    label_word := ⟨by decide +kernel, solid_of_all (by decide +kernel)⟩ }

def superscriptMember : LhaMember :=
  { genericMember with
    name := ofString "hello ² file.txt"
    line := line_of_all (by decide +kernel) }

def textMember : SevenZipMember where
  name := ofString "nested/file.txt"
  size := 4
  attributes := ofString "A -rw-r--r--"
  line := line_of_all (by decide +kernel)
  printable := fun c hc => by
    have := List.all_eq_true.1 (by decide +kernel : (ofString "A -rw-r--r--").all fun c =>
      0x20 ≤ c.val && c.val < 0x7F) c hc
    simpa using this

/-- A listing of each kind is read as it was printed. -/
theorem listings_read :
    Lists .unicode .sevenZip
        (ofString "Path = nested/file.txt\nSize = 4\nAttributes = A -rw-r--r--\n")
        [(ofString "nested/file.txt", 4)] ∧
      Lists .unicode .lha (ofString
        "[generic]                   18      20  90.0% -lh5- f4e8 Aug 21 12:00 hello file.txt\n")
        [(ofString "hello file.txt", 20)] := by
  obtain ⟨-, -, hsevenZip, hlha⟩ :=
    listings_read_iff .plain .unicode (show Kind.sevenZip ≠ .lha by decide)
  have hprintSevenZip : printSevenZip [textMember] =
      ofString "Path = nested/file.txt\nSize = 4\nAttributes = A -rw-r--r--\n" := by
    decide +kernel
  have hprintLha : printLha [genericMember] = ofString
      "[generic]                   18      20  90.0% -lh5- f4e8 Aug 21 12:00 hello file.txt\n" := by
    decide +kernel
  rw [← hprintSevenZip, ← hprintLha]
  refine ⟨(hsevenZip [textMember]).2 ?_, (hlha [genericMember]).2 ?_⟩
  · rintro member hmember
    obtain rfl := List.mem_singleton.1 hmember
    exact ⟨unbroken_of_all (by decide +kernel), by decide +kernel, by decide +kernel,
      by decide +kernel⟩
  · rintro member hmember
    obtain rfl := List.mem_singleton.1 hmember
    exact ⟨rfl, unbroken_of_all (by decide +kernel), .of_all (by decide +kernel),
      .inl ⟨by decide +kernel, by decide +kernel, solid_of_all (by decide +kernel)⟩⟩

/-- The row of another system is skipped, a superscript in a name fails the listing, and so does a
size that is no number. -/
theorem amiga_member_lost :
    ¬Lists .unicode .lha (printLha [amigaMember]) [(amigaMember.name, 20)] ∧
      ¬Converts .plain .unicode .lha (printLha [superscriptMember]) ∧
      ¬Converts .plain .unicode .sevenZip (ofString "Path = file.txt\nSize = many\n") := by
  have hamiga : parseLhaListing .unicode (printLha [amigaMember]) = .ok [] := by decide +kernel
  have hsuperscript : parseLhaListing .unicode (printLha [superscriptMember]) =
      .error (.value "invalid literal for int() with base 10") := by decide +kernel
  have hmany : parse7zListing (ofString "Path = file.txt\nSize = many\n") =
      [⟨ofString "file.txt", ofString "many", false⟩] := by decide +kernel
  refine ⟨?_, ?_, ?_⟩
  · rintro ⟨listed, hlisted, heq⟩
    rw [members, if_pos rfl, hamiga] at hlisted
    obtain rfl := Except.ok.inj hlisted
    exact List.cons_ne_nil _ _ heq.symm
  · rintro ⟨listed, hlisted, -⟩
    rw [members, if_pos rfl, hsuperscript] at hlisted
    cases hlisted
  · rintro ⟨listed, hlisted, hconverts⟩
    rw [members_sevenZip (by decide), hmany] at hlisted
    obtain rfl := Except.ok.inj hlisted
    obtain ⟨size, hsize⟩ :=
      hconverts _ (List.mem_singleton_self _) (by decide +kernel) rfl
    have hfail : SevenZipRow.declared .unicode ⟨ofString "file.txt", ofString "many", false⟩ =
        .error (.value "invalid literal for int() with base 10") := by decide +kernel
    cases hfail.symm.trans hsize

end Listings

end AVBox
