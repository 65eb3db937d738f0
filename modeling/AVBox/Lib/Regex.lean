import Mathlib.Data.List.Basic

/-!
# Backtracking regular expressions

Regular expressions over bytes, matched the way Perl and Python match them: `results` lists the
ways to match at a place in the order of preference, so the first one is the match.  A greedy
repetition prefers one more pass of its body, a lazy one prefers to end.
-/

namespace Regex

/-- A place in a text: the byte before it, the bytes after it, and the groups closed so far. -/
structure Cursor where
  previous : Option UInt8
  rest : List UInt8
  groups : List (ℕ × List UInt8)
  deriving DecidableEq

/-- The beginning of a text. -/
def Cursor.start (text : List UInt8) : Cursor := ⟨none, text, []⟩

/-- The last thing a group has matched. -/
def Cursor.group (cursor : Cursor) (index : ℕ) : List UInt8 :=
  (cursor.groups.find? fun group => group.1 = index).elim [] (·.2)

inductive Rx
  | empty
  | one (accepts : UInt8 → Bool)
  | seq (first second : Rx)
  /-- `(body)?` -/
  | maybe (body : Rx)
  /-- `(body)*`, or `(body)*?` when it is lazy. -/
  | many (greedy : Bool) (body : Rx)
  /-- `\b` -/
  | boundary
  | group (index : ℕ) (body : Rx)

/-- `[A-Za-z0-9_]` -/
def isWord (byte : UInt8) : Bool :=
  let c := byte.toNat
  (0x30 ≤ c && c ≤ 0x39) || (0x41 ≤ c && c ≤ 0x5A) || (0x61 ≤ c && c ≤ 0x7A) || c == 0x5F

/-- `\s`, on bytes. -/
def isSpace (byte : UInt8) : Bool :=
  let c := byte.toNat
  c == 0x20 || (0x09 ≤ c && c ≤ 0x0D)

/-- `\d`, on bytes. -/
def isDigit (byte : UInt8) : Bool :=
  let c := byte.toNat
  0x30 ≤ c && c ≤ 0x39

/-- Whether a word begins or ends at a place. -/
def Cursor.atBoundary (cursor : Cursor) : Bool :=
  cursor.previous.any isWord != cursor.rest.head?.any isWord

/-- The passes of a repetition.  A pass that matches nothing ends it. -/
def repeated (body : Cursor → List Cursor) (greedy : Bool) : ℕ → Cursor → List Cursor
  | 0, cursor => [cursor]
  | fuel + 1, cursor =>
      let further := (body cursor).filter fun next => next.rest.length < cursor.rest.length
      let more := further.flatMap (repeated body greedy fuel)
      if greedy then more ++ [cursor] else cursor :: more

/-- The ways to match at a place, in the order of preference. -/
def results : Rx → Cursor → List Cursor
  | .empty, cursor => [cursor]
  | .one accepts, cursor =>
      match cursor.rest with
      | byte :: rest => if accepts byte then [⟨some byte, rest, cursor.groups⟩] else []
      | [] => []
  | .seq first second, cursor => (results first cursor).flatMap (results second)
  | .maybe body, cursor => results body cursor ++ [cursor]
  | .many greedy body, cursor => repeated (results body) greedy cursor.rest.length cursor
  | .boundary, cursor => if cursor.atBoundary then [cursor] else []
  | .group index body, cursor =>
      (results body cursor).map fun next =>
        let content := cursor.rest.take (cursor.rest.length - next.rest.length)
        { next with groups := (index, content) :: next.groups }

/-- A text as it stands. -/
def literal (text : List UInt8) : Rx :=
  text.foldr (fun byte rx => .seq (.one (· == byte)) rx) .empty

/-- `(body)+` -/
def plus (body : Rx) : Rx := .seq body (.many true body)

/-- `re.match`. -/
def matchStart (rx : Rx) (text : List UInt8) : Option Cursor := (results rx (.start text)).head?

/-- The first match at or after a place. -/
def searchFrom (rx : Rx) (previous : Option UInt8) : List UInt8 → Option Cursor
  | [] => (results rx ⟨previous, [], []⟩).head?
  | byte :: rest =>
      match (results rx ⟨previous, byte :: rest, []⟩).head? with
      | some found => some found
      | none => searchFrom rx (some byte) rest

/-- `re.search`. -/
def search (rx : Rx) (text : List UInt8) : Option Cursor := searchFrom rx none text

/-- The matches that `re.finditer` goes through, for an expression that matches no empty text. -/
def matchesFrom (rx : Rx) : ℕ → Option UInt8 → List UInt8 → List Cursor
  | 0, _, _ => []
  | fuel + 1, previous, text =>
      match searchFrom rx previous text with
      | some found => found :: matchesFrom rx fuel found.previous found.rest
      | none => []

/-- `re.finditer`. -/
def allMatches (rx : Rx) (text : List UInt8) : List Cursor := matchesFrom rx text.length none text

end Regex
