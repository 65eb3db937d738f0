import AVBox.Analyzers.Containers
import AVBox.Lib.Text
import AVBox.Scanners.Adapters

/-!
# Listings of external archives

`_parse_7z_listing` and `_parse_lha_listing` of `analyzers/containers.py`, and the conversion of the
declared size in the loop over the members.  The text is the decoded output of the tool.  What
Python's character database says of digits is a parameter (`Numerals`).
-/

namespace AVBox

/-! ## Numbers -/

/-- What the character database says of digits: the value of a decimal digit, and which characters
`isdigit` accepts. -/
structure Numerals where
  decimal : Fin 0x110000 → Option ℕ
  isDigit : Fin 0x110000 → Bool
  decimal_lt : ∀ {c value}, decimal c = some value → value < 10
  decimal_ascii : ∀ c, c.val < 0x80 →
    decimal c = if 0x30 ≤ c.val ∧ c.val ≤ 0x39 then some (c.val - 0x30) else none
  isDigit_ascii : ∀ c, c.val < 0x80 → isDigit c = (decimal c).isSome

namespace Numerals

/-- The zeros of the decimal digits of Unicode 15, but for the ASCII one. -/
def zeros : List ℕ :=
  [0x660, 0x6F0, 0x7C0, 0x966, 0x9E6, 0xA66, 0xAE6, 0xB66, 0xBE6, 0xC66, 0xCE6, 0xD66, 0xDE6,
    0xE50, 0xED0, 0xF20, 0x1040, 0x1090, 0x17E0, 0x1810, 0x1946, 0x19D0, 0x1A80, 0x1A90, 0x1B50,
    0x1BB0, 0x1C40, 0x1C50, 0xA620, 0xA8D0, 0xA900, 0xA9D0, 0xA9F0, 0xAA50, 0xABF0, 0xFF10,
    0x104A0, 0x10D30, 0x11066, 0x110F0, 0x11136, 0x111D0, 0x112F0, 0x11450, 0x114D0, 0x11650,
    0x116C0, 0x11730, 0x118E0, 0x11950, 0x11C50, 0x11D50, 0x11DA0, 0x11F50, 0x16A60, 0x16AC0,
    0x16B50, 0x1D7CE, 0x1D7D8, 0x1D7E2, 0x1D7EC, 0x1D7F6, 0x1E140, 0x1E2F0, 0x1E4F0, 0x1E950,
    0x1FBF0]

/-- The digits that are not decimal: superscripts, subscripts, digits in circles. -/
def otherDigits : List (ℕ × ℕ) :=
  [(0xB2, 0xB3), (0xB9, 0xB9), (0x1369, 0x1371), (0x19DA, 0x19DA), (0x2070, 0x2070),
    (0x2074, 0x2079), (0x2080, 0x2089), (0x2460, 0x2468), (0x2474, 0x247C), (0x2488, 0x2490),
    (0x24EA, 0x24EA), (0x24F5, 0x24FD), (0x24FF, 0x24FF), (0x2776, 0x277E), (0x2780, 0x2788),
    (0x278A, 0x2792), (0x10A40, 0x10A43), (0x10E60, 0x10E68), (0x11052, 0x1105A),
    (0x1F100, 0x1F10A)]

def decimalOf (c : ℕ) : Option ℕ :=
  ((0x30 :: zeros).find? fun start => start ≤ c ∧ c < start + 10).map fun start => c - start

def isDigitOf (c : ℕ) : Bool :=
  (decimalOf c).isSome || otherDigits.any fun range => range.1 ≤ c ∧ c ≤ range.2

/-- The digits of Unicode 15. -/
def unicode : Numerals where
  decimal := fun c => decimalOf c.val
  isDigit := fun c => isDigitOf c.val
  decimal_lt := by
    intro c value h
    obtain ⟨start, hstart, rfl⟩ := Option.map_eq_some_iff.1 h
    have hrange := List.find?_some hstart
    simp only [decide_eq_true_eq] at hrange
    omega
  decimal_ascii := by
    intro c hc
    have hzeros : ∀ start ∈ zeros, 0x80 ≤ start := by decide
    have hrest : zeros.find? (fun start => start ≤ c.val ∧ c.val < start + 10) = none := by
      refine List.find?_eq_none.2 fun start hstart => ?_
      have := hzeros start hstart
      simp only [decide_eq_true_eq]
      omega
    rw [decimalOf, List.find?_cons, hrest]
    by_cases hdigit : 0x30 ≤ c.val ∧ c.val ≤ 0x39
    · rw [if_pos hdigit, decide_eq_true (by omega)]
      rfl
    · rw [if_neg hdigit, decide_eq_false (by omega)]
      rfl
  isDigit_ascii := by
    intro c hc
    have hothers : ∀ range ∈ otherDigits, 0x80 ≤ range.1 := by decide
    have hnone : (otherDigits.any fun range => decide (range.1 ≤ c.val ∧ c.val ≤ range.2)) =
        false := by
      refine List.any_eq_false.2 fun range hrange => ?_
      have := hothers range hrange
      simp only [decide_eq_true_eq]
      omega
    rw [isDigitOf, hnone, Bool.or_false]

variable (numerals : Numerals)

/-- The characters that `int` takes for blanks: of the ASCII ones the six of C only. -/
def isIntSpace (c : Fin 0x110000) : Bool :=
  if c.val < 0x80 then c.val == 0x20 || (0x09 ≤ c.val && c.val ≤ 0x0D) else PyStr.isSpace c

/-- A sign, if there is one, and what follows. -/
def signed : PyStr → Bool × PyStr
  | [] => (false, [])
  | c :: rest =>
      if c.val = 0x2D then (true, rest) else if c.val = 0x2B then (false, rest)
      else (false, c :: rest)

/-- The values of digits with single underscores between them. -/
def grouped (text : PyStr) : Option (List ℕ) :=
  let groups := text.splitOn 0x5F
  if [] ∈ groups then none else groups.flatten.mapM numerals.decimal

/-- The number of some decimal digits. -/
def ofDigits (values : List ℕ) : ℕ := values.foldl (fun number value => number * 10 + value) 0

/-- `int(text)`, which refuses more than 4300 digits. -/
def int (text : PyStr) : Except Exc ℤ :=
  let (negative, digits) :=
    signed (PyStr.rstripOf isIntSpace (text.dropWhile isIntSpace))
  match numerals.grouped digits with
  | none => .error (.value "invalid literal for int() with base 10")
  | some values =>
      if values.length > 4300 then
        .error (.value "Exceeds the limit (4300 digits) for integer string conversion")
      else .ok (if negative then -(ofDigits values : ℤ) else ofDigits values)

end Numerals

namespace PyStr

/-- The decimal digits of a number. -/
def ofNat (n : ℕ) : PyStr := (Nat.toDigits 10 n).map fun c => Fin.ofNat 0x110000 c.toNat

/-- `str(n)`, which refuses more than 4300 digits. -/
def ofInt (n : ℤ) : Except Exc PyStr :=
  let digits := ofNat n.natAbs
  if digits.length > 4300 then
    .error (.value "Exceeds the limit (4300 digits) for integer string conversion")
  else .ok (if n < 0 then 0x2D :: digits else digits)

/-- `text.split()`. -/
def split (text : PyStr) : List PyStr := Text.words isSpace text

/-- The parts of a text between blank lines, given the beginning of the first one. -/
def blocksFrom : PyStr → PyStr → List PyStr
  | block, [] => [block]
  | block, [c] => [block ++ [c]]
  | block, c :: d :: rest =>
      if c.val = 0x0A ∧ d.val = 0x0A then block :: blocksFrom [] rest
      else blocksFrom (block ++ [c]) (d :: rest)

/-- `text.split("\n\n")`. -/
def blocks (text : PyStr) : List PyStr := blocksFrom [] text

end PyStr

namespace Listings

open PyStr Text

/-! ## 7z -/

/-- A row of `_parse_7z_listing`. -/
structure SevenZipRow where
  name : PyStr
  size : PyStr
  directory : Bool
  deriving DecidableEq

/-- The key and the value of a line with an equals sign. -/
def assignment (line : PyStr) : Option (PyStr × PyStr) :=
  if 0x3D ∈ line then
    let key := line.takeWhile (· ≠ 0x3D)
    some (strip key, strip (line.drop (key.length + 1)))
  else none

/-- The assignments of a block, the last one first. -/
def assignments (block : PyStr) : List (PyStr × PyStr) :=
  ((splitLines block).filterMap assignment).reverse

/-- `values.get(key)`. -/
def valueOf (key : String) (block : PyStr) : Option PyStr :=
  (assignments block).lookup (ofString key)

def sevenZipRow (block : PyStr) : Option SevenZipRow :=
  match valueOf "Path" block, valueOf "Size" block with
  | some name, some size =>
      if name = [] ∨ name ∈ [ofString ".", ofString ".."] then none
      else
        let folder := (valueOf "Folder" block).getD (ofString "-")
        let attributes := (valueOf "Attributes" block).getD []
        some ⟨name, size, decide (folder = ofString "+") || (ofString "D").isPrefixOf attributes⟩
  | _, _ => none

/-- `_parse_7z_listing`. -/
def parse7zListing (output : PyStr) : List SevenZipRow := (blocks output).filterMap sevenZipRow

/-! ## lha -/

/-- A row of `_parse_lha_listing`. -/
structure LhaRow where
  method : Option PyStr
  size : ℤ
  name : PyStr
  directory : Bool
  deriving DecidableEq

/-- `\s+(.+)$` -/
def lastColumn : PyStr → Option PyStr :=
  greedy 1 (fun rest => if rest = [] then none else some rest) isSpace

/-- `.{12}\s+(.+)$` -/
def behindStamp (text : PyStr) : Option PyStr :=
  if text.length < 12 then none else lastColumn (text.drop 12)

/-- `-\s+\S+\s+.{12}\s+(.+)$` -/
def behindMethod : PyStr → Option PyStr
  | [] => none
  | c :: rest =>
      if c.val = 0x2D then
        greedy 1 (greedy 1 (greedy 1 behindStamp isSpace) fun c => !isSpace c) isSpace rest
      else none

/-- `-lh\S*-\s+\S+\s+.{12}\s+(.+)$` at the beginning of a line, which holds no newline. -/
def nameAt (line : PyStr) : Option PyStr :=
  if (ofString "-lh").isPrefixOf line then
    greedy 0 behindMethod (fun c => !isSpace c) (line.drop 3)
  else none

/-- The group that `re.search` finds in a line. -/
def searchName (line : PyStr) : Option PyStr := line.tails.findSome? nameAt

/-- `fields[1:-1]` -/
def innerFields (line : PyStr) : List PyStr := ((split line).drop 1).dropLast

/-- `value.isdigit()`. -/
def isDigits (numerals : Numerals) (value : PyStr) : Bool :=
  !value.isEmpty && value.all numerals.isDigit

/-- What `_parse_lha_listing` makes of a line. -/
def lhaRow (numerals : Numerals) (line : PyStr) : Except Exc (Option LhaRow) :=
  if (split line).length ≥ 5 ∧ (split line).head? = some (ofString "[generic]") then do
    let inner := innerFields line
    let numeric ← (inner.filter (isDigits numerals)).mapM numerals.int
    match numeric[1]?.or numeric[0]? with
    | none => return none
    | some size =>
        let name := (searchName line).getD (strip (line.drop 68))
        return some ⟨inner.find? fun value => (ofString "-lh").isPrefixOf value, size, name,
          (ofString "/").isSuffixOf name⟩
  else .ok none

/-- `_parse_lha_listing`. -/
def parseLhaListing (numerals : Numerals) (output : PyStr) : Except Exc (List LhaRow) := do
  let rows ← (splitLines output).mapM (lhaRow numerals)
  return rows.reduceOption

/-! ## The members -/

/-- `int(str(member.get("size", 0) or 0))`, of a row of the listing of 7z. -/
def SevenZipRow.declared (numerals : Numerals) (row : SevenZipRow) : Except Exc ℤ :=
  numerals.int (if row.size = [] then ofString "0" else row.size)

/-- `int(str(member.get("size", 0) or 0))`, of a row of the listing of lha. -/
def LhaRow.declared (numerals : Numerals) (row : LhaRow) : Except Exc ℤ :=
  ofInt row.size >>= numerals.int

/-- The members that `_process_external_archive` goes through. -/
def members (numerals : Numerals) (kind : Kind) (output : PyStr) :
    Except Exc (List ExternalMember) :=
  if kind = .lha then do
    let rows ← parseLhaListing numerals output
    return rows.map fun row => ⟨row.name, row.directory, row.declared numerals⟩
  else
    .ok ((parse7zListing output).map fun row => ⟨row.name, row.directory, row.declared numerals⟩)

end Listings

end AVBox
