import Mathlib.Algebra.Order.Ring.Nat
import Mathlib.Data.Nat.Log

/-!
# Compressed containers of VBA source

The format of MS-OVBA 2.4.1: a container is a list of chunks, a compressed chunk a list of groups
of up to eight tokens, and a copy token repeats text of its own chunk.  The split of the sixteen
bits of a copy token into offset and length depends on the position in the chunk.

`Container.text` is what a container means and `Container.bytes` how it is written down.
-/

namespace Ovba

abbrev Bytes := List UInt8

/-! ## Tokens -/

inductive Token
  | literal (byte : UInt8)
  | copy (offset length : ℕ)
  deriving DecidableEq

/-- Repeat a text from `offset` bytes before its end: the copy may run into what it writes. -/
def copyBack (offset : ℕ) : ℕ → Bytes → Bytes
  | 0, text => text
  | length + 1, text => copyBack offset length (text ++ [text.getD (text.length - offset) 0])

/-- The text of a chunk after one more token. -/
def Token.append (text : Bytes) : Token → Bytes
  | .literal byte => text ++ [byte]
  | .copy offset length => copyBack offset length text

/-- The number of bits that an offset takes at a position. -/
def bitCount (position : ℕ) : ℕ := max 4 (Nat.clog 2 position)

/-- A copy token in sixteen bits. -/
def pack (position offset length : ℕ) : ℕ :=
  (offset - 1) * 2 ^ (16 - bitCount position) + (length - 3)

/-- A token, written at a position. -/
def Token.bytes (position : ℕ) : Token → Bytes
  | .literal byte => [byte]
  | .copy offset length =>
      [UInt8.ofNat (pack position offset length), UInt8.ofNat (pack position offset length / 256)]

/-- A token that can be written at a position. -/
def Token.Fits (position : ℕ) : Token → Prop
  | .literal _ => True
  | .copy offset length => 1 ≤ offset ∧ offset ≤ position ∧ 3 ≤ length ∧
      length ≤ 2 ^ (16 - bitCount position) + 2

/-- The bit of a token in the flag byte of its group. -/
def Token.flag : Token → ℕ
  | .literal _ => 0
  | .copy _ _ => 1

/-! ## Groups, chunks and containers -/

/-- Up to eight tokens, and the bits of the flag byte that stand for no token. -/
structure Group where
  tokens : List Token
  spare : ℕ
  deriving DecidableEq

/-- The flag byte of some tokens, with the bits after them. -/
def flagsOf (spare : ℕ) : List Token → ℕ
  | [] => spare
  | token :: tokens => token.flag + 2 * flagsOf spare tokens

/-- Tokens as they are written behind the text of their chunk. -/
def tokenBytes : Bytes → List Token → Bytes
  | _, [] => []
  | text, token :: tokens => token.bytes text.length ++ tokenBytes (token.append text) tokens

/-- The text after some tokens. -/
def textAfter (text : Bytes) (tokens : List Token) : Bytes := tokens.foldl Token.append text

/-- Groups as they are written behind the text of their chunk. -/
def groupBytes : Bytes → List Group → Bytes
  | _, [] => []
  | text, group :: groups =>
      UInt8.ofNat (flagsOf group.spare group.tokens) :: tokenBytes text group.tokens ++
        groupBytes (textAfter text group.tokens) groups

inductive Chunk
  | raw (content : Bytes)
  | compressed (groups : List Group)

/-- What a chunk stands for. -/
def Chunk.text : Chunk → Bytes
  | .raw content => content
  | .compressed groups => textAfter [] (groups.flatMap Group.tokens)

/-- A chunk without its header. -/
def Chunk.body : Chunk → Bytes
  | .raw content => content
  | .compressed groups => groupBytes [] groups

/-- The header: the size of the chunk less three, the signature and the flag. -/
def Chunk.header (chunk : Chunk) : ℕ :=
  chunk.body.length - 1 + 0x3000 + match chunk with
    | .raw _ => 0
    | .compressed _ => 0x8000

def Chunk.bytes (chunk : Chunk) : Bytes :=
  UInt8.ofNat chunk.header :: UInt8.ofNat (chunk.header / 256) :: chunk.body

/-- Every token can be written where it stands. -/
def TokensFit : Bytes → List Token → Prop
  | _, [] => True
  | text, token :: tokens => token.Fits text.length ∧ TokensFit (token.append text) tokens

/-- All groups but the last are full. -/
def GroupsFull : List Group → Prop
  | [] => True
  | [group] => 1 ≤ group.tokens.length ∧ group.tokens.length ≤ 8 ∧
      group.spare < 2 ^ (8 - group.tokens.length)
  | group :: groups => group.tokens.length = 8 ∧ group.spare = 0 ∧ GroupsFull groups

/-- A chunk of 1 to 4096 bytes of text whose tokens can be written. -/
structure Chunk.Conforms (chunk : Chunk) : Prop where
  text_pos : 1 ≤ chunk.text.length
  text_le : chunk.text.length ≤ 4096
  body_le : chunk.body.length ≤ 4096
  groups : ∀ groups, chunk = .compressed groups → GroupsFull groups ∧
    TokensFit [] (groups.flatMap Group.tokens)

abbrev Container := List Chunk

/-- What a container stands for. -/
def Container.text (container : Container) : Bytes := container.flatMap Chunk.text

/-- A container behind its signature byte. -/
def Container.bytes (container : Container) : Bytes := 1 :: container.flatMap Chunk.bytes

def Container.Conforms (container : Container) : Prop := ∀ chunk ∈ container, chunk.Conforms

instance (position : ℕ) : (token : Token) → Decidable (token.Fits position)
  | .literal _ => isTrue trivial
  | .copy offset length => inferInstanceAs (Decidable (1 ≤ offset ∧ offset ≤ position ∧
      3 ≤ length ∧ length ≤ 2 ^ (16 - bitCount position) + 2))

instance tokensFitDecidable : (text : Bytes) → (tokens : List Token) →
    Decidable (TokensFit text tokens)
  | _, [] => isTrue trivial
  | text, token :: tokens =>
      have := tokensFitDecidable (token.append text) tokens
      inferInstanceAs (Decidable (token.Fits text.length ∧ TokensFit (token.append text) tokens))

instance groupsFullDecidable : (groups : List Group) → Decidable (GroupsFull groups)
  | [] => isTrue trivial
  | [group] => inferInstanceAs (Decidable (1 ≤ group.tokens.length ∧ group.tokens.length ≤ 8 ∧
      group.spare < 2 ^ (8 - group.tokens.length)))
  | group :: next :: groups =>
      have := groupsFullDecidable (next :: groups)
      inferInstanceAs (Decidable (group.tokens.length = 8 ∧ group.spare = 0 ∧
        GroupsFull (next :: groups)))

/-- For one compressed chunk conformance can be checked. -/
lemma conforms_compressed {groups : List Group}
    (h : 1 ≤ (Chunk.compressed groups).text.length ∧
      (Chunk.compressed groups).text.length ≤ 4096 ∧
      (Chunk.compressed groups).body.length ≤ 4096 ∧
      GroupsFull groups ∧ TokensFit [] (groups.flatMap Group.tokens)) :
    (Chunk.compressed groups).Conforms := by
  obtain ⟨hpos, hle, hbody, hfull⟩ := h
  refine ⟨hpos, hle, hbody, fun other hother => ?_⟩
  obtain rfl := Chunk.compressed.inj hother
  exact hfull

/-! ## Lengths -/

@[simp] lemma length_copyBack (offset length : ℕ) (text : Bytes) :
    (copyBack offset length text).length = text.length + length := by
  induction length generalizing text with
  | zero => rfl
  | succ length ih =>
      rw [copyBack, ih, List.length_append, List.length_singleton]
      omega

/-- A copy that stays within a text does not see what stands before it. -/
lemma copyBack_append {offset : ℕ} (before text : Bytes)
    (h : offset ≤ text.length) (length : ℕ) :
    copyBack offset length (before ++ text) = before ++ copyBack offset length text := by
  induction length generalizing text with
  | zero => rfl
  | succ length ih =>
      have hget : (before ++ text).getD ((before ++ text).length - offset) 0 =
          text.getD (text.length - offset) 0 := by
        rw [List.getD_eq_getElem?_getD, List.getD_eq_getElem?_getD, List.length_append,
          List.getElem?_append_right (by omega)]
        congr 2
        omega
      rw [copyBack, copyBack, hget, List.append_assoc, ih]
      rw [List.length_append]
      omega

lemma length_le_append (text : Bytes) (token : Token) :
    text.length ≤ (token.append text).length := by
  cases token <;> simp [Token.append]

/-- A text only grows. -/
lemma length_le_textAfter (text : Bytes) (tokens : List Token) :
    text.length ≤ (textAfter text tokens).length := by
  induction tokens generalizing text with
  | nil => exact Nat.le_refl _
  | cons token tokens ih => exact (length_le_append text token).trans (ih _)

lemma textAfter_append (text : Bytes) (tokens tokens' : List Token) :
    textAfter text (tokens ++ tokens') = textAfter (textAfter text tokens) tokens' :=
  List.foldl_append ..

lemma tokensFit_append {text : Bytes} {tokens tokens' : List Token} :
    TokensFit text (tokens ++ tokens') ↔
      TokensFit text tokens ∧ TokensFit (textAfter text tokens) tokens' := by
  induction tokens generalizing text with
  | nil => simp [TokensFit, textAfter]
  | cons token tokens ih =>
      simp only [List.cons_append, TokensFit, ih, and_assoc]
      rfl

/-- The flags of up to eight tokens are a byte. -/
lemma flagsOf_lt {spare bits : ℕ} {tokens : List Token} (hlength : tokens.length ≤ bits)
    (hspare : spare < 2 ^ (bits - tokens.length)) : flagsOf spare tokens < 2 ^ bits := by
  induction tokens generalizing bits with
  | nil => simpa [flagsOf] using hspare
  | cons token tokens ih =>
      obtain ⟨bits, rfl⟩ : ∃ rest, bits = rest + 1 := ⟨bits - 1, by simp at hlength; omega⟩
      simp only [List.length_cons, Nat.add_sub_add_right] at hlength hspare
      have hrest := ih (Nat.le_of_succ_le_succ hlength) hspare
      have hflag : token.flag ≤ 1 := by cases token <;> simp [Token.flag]
      rw [flagsOf, Nat.pow_succ]
      omega

/-- The packed form of a copy token fits in sixteen bits. -/
lemma pack_lt {position offset length : ℕ} (h : (Token.copy offset length).Fits position)
    (hposition : position ≤ 2 ^ 16) : pack position offset length < 2 ^ 16 := by
  obtain ⟨hoffset, hle, hlength, hmax⟩ := h
  have hbits : bitCount position ≤ 16 := by
    refine Nat.max_le.2 ⟨by omega, ?_⟩
    exact (Nat.clog_le_iff_le_pow (by omega)).2 hposition
  have hpow : position ≤ 2 ^ bitCount position :=
    (Nat.le_pow_clog (by omega) position).trans
      (Nat.pow_le_pow_right (by omega) (Nat.le_max_right _ _))
  have hsplit : 2 ^ 16 = 2 ^ bitCount position * 2 ^ (16 - bitCount position) := by
    rw [← Nat.pow_add]
    congr 1
    omega
  have hfirst : (offset - 1 + 1) * 2 ^ (16 - bitCount position) ≤ 2 ^ 16 := by
    rw [hsplit]
    exact Nat.mul_le_mul_right _ (by omega)
  rw [Nat.add_mul, Nat.one_mul] at hfirst
  unfold pack
  omega

end Ovba
