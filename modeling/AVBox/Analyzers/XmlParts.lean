import AVBox.Analyzers.Document
import Mathlib.Data.List.Infix

/-!
# Declarations in XML parts

`_safe_xml` looks for document type and entity declarations in the bytes of a part, and the XML
parser in its characters.  The two agree on UTF-8.  In UTF-16 no tag is spelled by consecutive bytes
of its ASCII form, other than by accident, so a declaration reaches the parser.

A part is refused unparsed when the error does not depend on the parser.  The results of packages
then do not depend on what the parser would do with such a part (`NeverParsed`).
-/

namespace AVBox

open Binary

namespace Document

/-! ## Encodings -/

/-- The encodings of an XML document, UTF-16 with its byte order mark. -/
inductive XmlEncoding
  | utf8
  | utf16le
  | utf16be
  deriving DecidableEq, Repr

/-- The UTF-8 encoding of a character. -/
def utf8Bytes (c : Fin 0x110000) : Bytes :=
  let n := c.val
  if n < 0x80 then [UInt8.ofNat n]
  else if n < 0x800 then [UInt8.ofNat (0xC0 + n / 0x40), UInt8.ofNat (0x80 + n % 0x40)]
  else if n < 0x10000 then
    [UInt8.ofNat (0xE0 + n / 0x1000), UInt8.ofNat (0x80 + n / 0x40 % 0x40),
      UInt8.ofNat (0x80 + n % 0x40)]
  else
    [UInt8.ofNat (0xF0 + n / 0x40000), UInt8.ofNat (0x80 + n / 0x1000 % 0x40),
      UInt8.ofNat (0x80 + n / 0x40 % 0x40), UInt8.ofNat (0x80 + n % 0x40)]

/-- The UTF-16 code units of a character. -/
def utf16Units (c : Fin 0x110000) : List ℕ :=
  if c.val < 0x10000 then [c.val]
  else [0xD800 + (c.val - 0x10000) / 0x400, 0xDC00 + (c.val - 0x10000) % 0x400]

/-- The bytes of a document. -/
def XmlEncoding.encode : XmlEncoding → PyStr → Bytes
  | .utf8, text => text.flatMap utf8Bytes
  | .utf16le, text =>
      [0xFF, 0xFE] ++ (text.flatMap utf16Units).flatMap fun unit =>
        [UInt8.ofNat unit, UInt8.ofNat (unit / 256)]
  | .utf16be, text =>
      [0xFE, 0xFF] ++ (text.flatMap utf16Units).flatMap fun unit =>
        [UInt8.ofNat (unit / 256), UInt8.ofNat unit]

example : XmlEncoding.utf8.encode [0x24, 0xE9, 0x20AC, 0x1F600] =
    [0x24, 0xC3, 0xA9, 0xE2, 0x82, 0xAC, 0xF0, 0x9F, 0x98, 0x80] := by decide

example : XmlEncoding.utf16be.encode [0x24, 0x1F600] =
    [0xFE, 0xFF, 0, 0x24, 0xD8, 0x3D, 0xDE, 0x00] := by decide

/-! ## Declarations -/

/-- How a declaration begins. -/
def declarationTags : List String := ["<!DOCTYPE", "<!ENTITY"]

/-- The text of a document contains a document type or entity declaration. -/
def Declares (text : PyStr) : Prop :=
  ∃ tag ∈ declarationTags, ∃ before after, text = before ++ PyStr.ofString tag ++ after

/-- The bytes of a document contain the ASCII spelling of a tag, in upper or lower case. -/
def SpellsTag (data : Bytes) : Prop :=
  ∃ tag ∈ declarationTags, contains (ascii tag) (upperBytes data) = true

/-- `_safe_xml` raises a `DocumentError`, whatever the parser would do. -/
def RefusedUnparsed (limits : DocumentLimits) (data : Bytes) : Prop :=
  ∃ text, ∀ lib : DocumentLib, safeXml lib limits data = .error (.document text)

/-- No package is read differently when the parser treats `data` differently. -/
def NeverParsed (limits : DocumentLimits) (data : Bytes) : Prop :=
  ∀ (env : ExtractEnv) (lib other : DocumentLib),
    (∀ part, part ≠ data → lib.parseXml part = other.parseXml part) →
      ∀ content, parsePackage env lib limits content = parsePackage env other limits content

instance (data : Bytes) : Decidable (SpellsTag data) := inferInstanceAs (Decidable (∃ _ ∈ _, _))

variable {limits : DocumentLimits} {data : Bytes}

/-- What comes before the parser is asked. -/
lemma safeXml_of_refused (h : limits.maxDocumentParserBytes < data.length ∨ SpellsTag data) :
    RefusedUnparsed limits data := by
  by_cases hlength : limits.maxDocumentParserBytes < data.length
  · exact ⟨_, fun lib => by rw [safeXml, if_pos hlength]⟩
  · have htag := h.resolve_left hlength
    refine ⟨"XML DTD/entity declarations forbidden", fun lib => ?_⟩
    rw [safeXml, if_neg hlength, if_pos (by simpa [SpellsTag, declarationTags] using htag)]

/-- A part goes to the parser unless it is too long or spells a tag. -/
lemma refusedUnparsed_iff :
    RefusedUnparsed limits data ↔
      limits.maxDocumentParserBytes < data.length ∨ SpellsTag data := by
  refine ⟨fun ⟨text, hrefused⟩ => ?_, safeXml_of_refused⟩
  by_contra hneither
  obtain ⟨hlength, htag⟩ := not_or.1 hneither
  -- The error of a parser becomes part of the text.
  have hparser (word : String) : text = "malformed XML part: " ++ word := by
    have hlib := hrefused
      { inflate := fun _ _ => .ok ([], [])
        parseXml := fun _ => .error ⟨.other, "ParseError", word⟩
        frames := 0 }
    rw [safeXml, if_neg hlength, if_neg (by simpa [SpellsTag, declarationTags] using htag)] at hlib
    exact (congrArg Exc.text (Except.error.inj hlib)).symm
  have hsame := (hparser "a").symm.trans (hparser "b")
  exact absurd hsame (by decide)

lemma contains_of_infix {needle : Bytes} (h : needle <:+: data) : contains needle data = true := by
  obtain ⟨before, after, rfl⟩ := h
  rw [contains, List.any_eq_true]
  exact ⟨needle ++ after, (List.mem_tails _ _).2 ⟨before, by simp⟩, by simp⟩

lemma upperBytes_append (first second : Bytes) :
    upperBytes (first ++ second) = upperBytes first ++ upperBytes second := List.map_append

/-- The tags are ASCII, and in upper case. -/
lemma utf8_tag {tag : String} (h : tag ∈ declarationTags) :
    upperBytes (XmlEncoding.utf8.encode (PyStr.ofString tag)) = ascii tag := by
  rcases List.mem_pair.1 h with rfl | rfl <;> decide +kernel

/-- A tag in a text is found in its UTF-8 encoding. -/
lemma spellsTag_of_declares {text : PyStr} (h : Declares text) :
    SpellsTag (XmlEncoding.utf8.encode text) := by
  obtain ⟨tag, htag, before, after, rfl⟩ := h
  refine ⟨tag, htag, contains_of_infix ?_⟩
  have hencode : XmlEncoding.utf8.encode (before ++ PyStr.ofString tag ++ after) =
      XmlEncoding.utf8.encode before ++ XmlEncoding.utf8.encode (PyStr.ofString tag) ++
        XmlEncoding.utf8.encode after := by
    simp only [XmlEncoding.encode, List.flatMap_append]
  rw [hencode, upperBytes_append, upperBytes_append, utf8_tag htag]
  exact ⟨_, _, rfl⟩

/-! ## Packages -/

section Packages

variable {env : ExtractEnv} {lib other : DocumentLib} {content : Bytes}

lemma xmlPart_congr (h : ∀ part, safeXml lib limits part = safeXml other limits part)
    (parts : List Part) (name : String) :
    xmlPart env lib limits content parts name = xmlPart env other limits content parts name := by
  simp only [xmlPart, h]

lemma readRelationships_congr (h : ∀ part, safeXml lib limits part = safeXml other limits part)
    (count : ℕ) (parts : List Part) :
    readRelationships env lib limits content count parts =
      readRelationships env other limits content count parts := by
  induction parts generalizing count with
  | nil => rfl
  | cons part parts ih => simp only [readRelationships, h, ih]

/-- A package is read through `_safe_xml` only. -/
lemma parsePackage_congr (h : ∀ part, safeXml lib limits part = safeXml other limits part) :
    parsePackage env lib limits content = parsePackage env other limits content := by
  simp only [parsePackage, parseOoxml, parseOdf, checkPart, xmlPart_congr h,
    readRelationships_congr h]

end Packages

lemma neverParsed_of_refused (h : RefusedUnparsed limits data) : NeverParsed limits data := by
  obtain ⟨text, hrefused⟩ := h
  intro env lib other hagree content
  refine parsePackage_congr fun part => ?_
  by_cases hpart : part = data
  · rw [hpart, hrefused lib, hrefused other]
  · simp only [safeXml, hagree part hpart]

/-- A text with a declaration is refused unparsed, and in packages as well, exactly when it is
encoded in UTF-8, or is too long, or spells a tag by accident. -/
theorem declaration_unparsed_iff (limits : DocumentLimits) (encoding : XmlEncoding) {text : PyStr}
    (h : Declares text) :
    RefusedUnparsed limits (encoding.encode text) ∧ NeverParsed limits (encoding.encode text) ↔
      encoding = .utf8 ∨ limits.maxDocumentParserBytes < (encoding.encode text).length ∨
        SpellsTag (encoding.encode text) := by
  constructor
  · rintro ⟨hrefused, -⟩
    exact Or.inr (refusedUnparsed_iff.1 hrefused)
  · intro hcondition
    have hrefused : RefusedUnparsed limits (encoding.encode text) := by
      rcases hcondition with rfl | hother
      · exact refusedUnparsed_iff.2 (Or.inr (spellsTag_of_declares h))
      · exact refusedUnparsed_iff.2 hother
    exact ⟨hrefused, neverParsed_of_refused hrefused⟩

/-- A document with an entity, as UTF-8. -/
def entityDocument : PyStr := PyStr.ofString "<!DOCTYPE r [<!ENTITY e 'x'>]><r>&e;</r>"

lemma declares_entityDocument : Declares entityDocument :=
  ⟨"<!DOCTYPE", List.mem_cons_self, [], PyStr.ofString " r [<!ENTITY e 'x'>]><r>&e;</r>", rfl⟩

/-- In UTF-8 the entity is found. -/
theorem utf8_entity_unparsed :
    RefusedUnparsed .default (XmlEncoding.utf8.encode entityDocument) ∧
      NeverParsed .default (XmlEncoding.utf8.encode entityDocument) :=
  (declaration_unparsed_iff .default .utf8 declares_entityDocument).2 (Or.inl rfl)

/-- In UTF-16 it is not. -/
theorem utf16_entity_parsed :
    ¬∀ encoding text, Declares text →
      RefusedUnparsed .default (XmlEncoding.encode encoding text) := by
  intro h
  rcases refusedUnparsed_iff.1 (h .utf16le entityDocument declares_entityDocument) with
    hlength | htag
  · exact absurd hlength (by decide +kernel)
  · exact absurd htag (by decide +kernel)

end Document

end AVBox
