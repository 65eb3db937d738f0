import Mathlib.Algebra.Order.Ring.Nat
import Mathlib.Data.List.Basic

/-!
# Values every part of the service shares

The vocabulary of `models/common.py` and `models/artifacts.py`: verdicts, qualification states,
the hashes that identify an object, and Python's own bytes, strings and exceptions.

* Text whose characters come from AVBox itself is a `String`.  A name that an archive or a client
  chose is a `PyStr`, a sequence of code points in which surrogates may stand alone.
* An exception is its `family`, which is what an `except` clause looks at, together with the name
  and the text that end up in error lists.
* A `Digest n` is a lower-case hexadecimal string of length `n` together with the proof that it
  is one, so a value the pydantic models would refuse cannot be built.
-/

namespace AVBox

/-! ## Bytes and text -/

/-- The content of a file or of a read buffer. -/
abbrev Bytes := List UInt8

/-- A Python string: code points, lone surrogates included. -/
abbrev PyStr := List (Fin 0x110000)

instance codePoints : NeZero 0x110000 := ⟨by decide⟩

-- Names of their own, so that a test for membership reads the same in every module.
instance codePointBEq : LawfulBEq (Fin 0x110000) := inferInstance

instance textBEq : LawfulBEq PyStr := inferInstance

namespace PyStr

/-- The code points of a text that AVBox itself spells. -/
def ofString (text : String) : PyStr :=
  text.toList.map fun c => Fin.ofNat 0x110000 c.toNat

/-- A surrogate has no UTF-8 encoding. -/
def isSurrogate (c : Fin 0x110000) : Bool := decide (0xD800 ≤ c.val ∧ c.val ≤ 0xDFFF)

/-- The string can be encoded, and a pydantic `str` field accepts it. -/
def wellFormed (text : PyStr) : Bool := text.all fun c => !isSurrogate c

/-- `character.isspace()`. -/
def isSpace (c : Fin 0x110000) : Bool :=
  let n := c.val
  (0x09 ≤ n && n ≤ 0x0D) || (0x1C ≤ n && n ≤ 0x20) || n == 0x85 || n == 0xA0 || n == 0x1680 ||
    (0x2000 ≤ n && n ≤ 0x200A) || n == 0x2028 || n == 0x2029 || n == 0x202F || n == 0x205F ||
    n == 0x3000

/-- `text.rstrip(...)` for the characters of a kind. -/
def rstripOf (kind : Fin 0x110000 → Bool) (text : PyStr) : PyStr :=
  (text.reverse.dropWhile kind).reverse

/-- `text.rstrip()`. -/
def rstrip (text : PyStr) : PyStr := rstripOf isSpace text

/-- `text.strip()`. -/
def strip (text : PyStr) : PyStr := rstrip (text.dropWhile isSpace)

/-- `bytes.decode("ascii", "replace")`. -/
def decodeAscii (bytes : Bytes) : PyStr :=
  bytes.map fun byte => if byte.toNat < 0x80 then Fin.ofNat 0x110000 byte.toNat else 0xFFFD

/-- `separator.join(texts)`, with one text more at the end. -/
lemma intercalate_concat (separator : PyStr) {texts : List PyStr} (h : texts ≠ []) (text : PyStr) :
    List.intercalate separator (texts ++ [text]) =
      List.intercalate separator texts ++ separator ++ text := by
  induction texts with
  | nil => exact absurd rfl h
  | cons first rest ih =>
      by_cases hrest : rest = []
      · simp [hrest]
      · rw [List.cons_append, List.intercalate_cons_of_ne_nil (by simp), ih hrest,
          List.intercalate_cons_of_ne_nil hrest]
        simp only [List.append_assoc]

lemma intercalate_ne_nil (separator : PyStr) {texts : List PyStr} (h : texts ≠ [])
    (hnonempty : ∀ text ∈ texts, text ≠ []) : List.intercalate separator texts ≠ [] := by
  obtain ⟨first, rest, rfl⟩ := List.exists_cons_of_ne_nil h
  have hfirst := hnonempty first List.mem_cons_self
  by_cases hrest : rest = []
  · simpa [hrest] using hfirst
  · rw [List.intercalate_cons_of_ne_nil hrest]
    simp [hfirst]

end PyStr

/-- `text.startswith(head)`. -/
def startsWith (text head : String) : Bool := head.toList.isPrefixOf text.toList

/-- `text.upper()` for the ASCII status names it is used on. -/
def upper (text : String) : String := String.ofList (text.toList.map Char.toUpper)

/-! ## Exceptions -/

/-- The exception classes that AVBox raises, or that an `except` clause of AVBox names.  A
subclass without a clause of its own belongs to its parent's family: `FileExistsError` is an
`osError` and `tarfile.ReadError` a `tarError`. -/
inductive ExcFamily
  | osError
  | tarError
  | badZipFile
  | eofError
  | zlibError
  | lzmaError
  | notImplementedError
  | documentError
  | diskImageError
  | partitionTableError
  | valueError
  | runtimeError
  | recursionError
  | timeoutExpired
  | databaseError
  | other
  deriving DecidableEq, Repr

/-- An exception in flight: its family, `type(exc).__name__` and `str(exc)`. -/
structure Exc where
  family : ExcFamily
  name : String
  text : String
  deriving DecidableEq, Repr

/-- `ValueError(text)`. -/
def Exc.value (text : String) : Exc := ⟨.valueError, "ValueError", text⟩

/-- `RuntimeError(text)`. -/
def Exc.runtime (text : String) : Exc := ⟨.runtimeError, "RuntimeError", text⟩

/-- What stands for a loop that does not end. -/
def Exc.unending : Exc := ⟨.other, "", "the loop does not end"⟩

/-! ## Verdicts and qualification -/

inductive Verdict
  | clean
  | malicious
  | suspicious
  | pua
  | error
  | unsupported
  | notScanned
  | unknown
  deriving DecidableEq, Repr

/-- `{Verdict.MALICIOUS, Verdict.SUSPICIOUS, Verdict.PUA}`: what may enter quarantine. -/
def Verdict.positive : Verdict → Bool
  | .malicious | .suspicious | .pua => true
  | _ => false

inductive QualificationState
  | notInstalled
  | installed
  | probed
  | qualified
  | degraded
  | failed
  | disabled
  deriving DecidableEq, Repr

/-! ## Object identity -/

/-- `^[0-9a-f]{n}$`. -/
def IsDigest (n : ℕ) (text : String) : Prop :=
  text.toList.length = n ∧ ∀ c ∈ text.toList, c ∈ "0123456789abcdef".toList

instance (n : ℕ) (text : String) : Decidable (IsDigest n text) :=
  decidable_of_iff
    (text.toList.length = n ∧ (text.toList.all fun c => decide (c ∈ "0123456789abcdef".toList)) =
      true)
    (by simp only [IsDigest, List.all_eq_true, decide_eq_true_eq])

/-- A digest of `n` hexadecimal characters. -/
abbrev Digest (n : ℕ) := {text : String // IsDigest n text}

/-- The four digests of one object. -/
structure Hashes where
  sha256 : Digest 64
  blake3 : Digest 64
  sha1 : Digest 40
  md5 : Digest 32
  deriving DecidableEq

/-- The digests of the empty file. -/
def Hashes.empty : Hashes where
  sha256 := ⟨"e3b0c44298fc1c149afbf4c8996fb92427ae41e4649b934ca495991b7852b855", by decide⟩
  blake3 := ⟨"af1349b9f5f9a1a6a0404dea36dcc9499bcb25c9adc112b7cc9a93cae41f3262", by decide⟩
  sha1 := ⟨"da39a3ee5e6b4b0d3255bfef95601890afd80709", by decide⟩
  md5 := ⟨"d41d8cd98f00b204e9800998ecf8427e", by decide⟩

/-- The identity of an object handed to the scanners. -/
structure InputArtifact where
  hashes : Hashes
  byteSize : ℕ
  filename : String
  submittedFilename : Option PyStr
  mediaType : String
  source : String
  deriving DecidableEq

end AVBox
