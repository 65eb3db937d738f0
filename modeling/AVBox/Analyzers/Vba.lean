import AVBox.Lib.Binary
import AVBox.Lib.Ovba
import AVBox.Models.Common
import Mathlib.Data.Nat.Size

/-!
# The VBA decompressor

`_decompress_vba` of `analyzers/document.py` against the format of `Ovba`.  The decompressor takes
the bit length of the position where the format takes its base-2 logarithm, rounded up: the two
differ at the powers of two from 16 on, and there a copy token is split one bit too far.
-/

namespace AVBox

open Binary Ovba

namespace Vba

/-! ## The decompressor -/

/-- `max(4, max(1, position).bit_length())`. -/
def codeBits (position : ℕ) : ℕ := max 4 (Nat.size (max 1 position))

/-- What `1 << length_bits` raises for a negative number. -/
def negativeShift : Exc := .value "negative shift count"

/-- A copy token, `position` bytes into its chunk: the new output, or `None`. -/
def copyToken (maximum position token : ℕ) (output : Bytes) : Except Exc (Option Bytes) :=
  if codeBits position > 16 then .error negativeShift
  else
    let lengthBits := 16 - codeBits position
    let length := (token &&& (1 <<< lengthBits - 1)) + 3
    let offset := (token >>> lengthBits) + 1
    if offset > position then .ok none
    else
      let output := copyBack offset length output
      .ok (if output.length > maximum then none else some output)

/-- The rest of a compressed chunk that began at `start`, with `bits` flags left. -/
def expand (maximum start : ℕ) : ℕ → ℕ → Bytes → Bytes → Except Exc (Option Bytes)
  | _, _, [], output => .ok (some output)
  | _, 0, flags :: body, output => expand maximum start flags.toNat 8 body output
  | flags, bits + 1, first :: body, output =>
      if flags % 2 = 1 then
        match body with
        | [] => .ok none
        | second :: body => do
            match ← copyToken maximum (output.length - start) (le16 [first, second] 0) output with
            | some output => expand maximum start (flags / 2) bits body output
            | none => return none
      else
        let output := output ++ [first]
        if output.length > maximum then .ok none
        else expand maximum start (flags / 2) bits body output

/-- A chunk behind its header. -/
def expandChunk (maximum header : ℕ) (body output : Bytes) : Except Exc (Option Bytes) :=
  if header &&& 0x8000 = 0 then .ok (some (output ++ body))
  else expand maximum output.length 0 0 body output

/-- The chunks of a container, at most `fuel` of them. -/
def chunksFrom (maximum : ℕ) : ℕ → Bytes → Bytes → Except Exc (Option Bytes)
  | _, [], output => .ok (some output)
  | 0, _ :: _, _ => .ok none
  | fuel + 1, data, output =>
      let header := le16 data 0
      let size := (header &&& 0x0FFF) + 3
      if data.length < 2 ∨ header &&& 0x7000 ≠ 0x3000 ∨ data.length < size then .ok none
      else do
        match ← expandChunk maximum header (slice data 2 size) output with
        | some output =>
            if output.length > maximum then return none
            else chunksFrom maximum fuel (data.drop size) output
        | none => return none

/-- `_decompress_vba`. -/
def decompressVba (data : Bytes) (maximum : ℕ) : Except Exc (Option Bytes) :=
  match data with
  | [] => .ok none
  | signature :: data => if signature ≠ 1 then .ok none else chunksFrom maximum data.length data []

/-! ## Copy tokens -/

/-- Where the decompressor splits a copy token one bit too far. -/
def Misjudged (position : ℕ) : Prop := ∃ k, 4 ≤ k ∧ position = 2 ^ k

/-- Elsewhere the code's bit count is that of the format. -/
lemma codeBits_eq {position : ℕ} (h : ¬Misjudged position) :
    codeBits position = bitCount position := by
  have hsize : ∀ n, 4 ≤ n → (Nat.size (max 1 position) ≤ n ↔ Nat.clog 2 position ≤ n) := by
    intro n hn
    rw [Nat.size_le, Nat.clog_le_iff_le_pow Nat.one_lt_two]
    have hone : 1 < 2 ^ n := Nat.one_lt_two_pow (by omega)
    have hne : position ≠ 2 ^ n := fun heq => h ⟨n, hn, heq⟩
    omega
  unfold codeBits bitCount
  refine Nat.le_antisymm (Nat.max_le.2 ⟨Nat.le_max_left _ _, ?_⟩)
    (Nat.max_le.2 ⟨Nat.le_max_left _ _, ?_⟩)
  · exact (hsize _ (Nat.le_max_left _ _)).2 (Nat.le_max_right _ _)
  · exact (hsize _ (Nat.le_max_left _ _)).1 (Nat.le_max_right _ _)

/-- A position in a chunk of 4096 bytes needs at most 13 bits. -/
lemma codeBits_le {position : ℕ} (h : position ≤ 4096) : codeBits position ≤ 13 := by
  refine Nat.max_le.2 ⟨by omega, Nat.size_le.2 ?_⟩
  omega

/-- The offset and the length that the decompressor takes out of a copy token. -/
def split (position token : ℕ) : ℕ × ℕ :=
  let lengthBits := 16 - codeBits position
  (token / 2 ^ lengthBits + 1, token % 2 ^ lengthBits + 3)

/-- A copy token still has its effect when the decompressor splits it. -/
def CopyKept (text : Bytes) (offset length : ℕ) : Prop :=
  let (offset', length') := split text.length (pack text.length offset length)
  offset' ≤ text.length ∧ copyBack offset' length' text = copyBack offset length text

/-- All copy tokens at the misjudged positions still have their effect. -/
def CopiesKept : Bytes → List Token → Prop
  | _, [] => True
  | text, .literal byte :: tokens => CopiesKept (text ++ [byte]) tokens
  | text, .copy offset length :: tokens =>
      (Misjudged text.length → CopyKept text offset length) ∧
        CopiesKept (copyBack offset length text) tokens

/-- Where the bit counts agree, splitting undoes packing. -/
lemma split_pack {position offset length : ℕ} (h : (Token.copy offset length).Fits position)
    (hbits : codeBits position = bitCount position) :
    split position (pack position offset length) = (offset, length) := by
  obtain ⟨hoffset, -, hlength, hmax⟩ := h
  simp only [split, pack, hbits]
  have hpos : 0 < 2 ^ (16 - bitCount position) := Nat.two_pow_pos _
  rw [Nat.add_comm ((offset - 1) * _), Nat.add_mul_div_right _ _ hpos, Nat.add_mul_mod_self_right,
    Nat.div_eq_of_lt (by omega), Nat.mod_eq_of_lt (by omega), Prod.mk.injEq]
  omega

lemma copyKept_of_fits {text : Bytes} {offset length : ℕ}
    (hfits : (Token.copy offset length).Fits text.length)
    (h : Misjudged text.length → CopyKept text offset length) : CopyKept text offset length := by
  by_cases hposition : Misjudged text.length
  · exact h hposition
  · simp only [CopyKept, split_pack hfits (codeBits_eq hposition)]
    exact ⟨hfits.2.1, trivial⟩

/-- A copy token, read behind some earlier output, has its effect exactly when it is kept. -/
lemma copyToken_iff {maximum : ℕ} {before text : Bytes} {offset length : ℕ}
    (hposition : text.length ≤ 4096)
    (hmax : before.length + (copyBack offset length text).length ≤ maximum) :
    copyToken maximum text.length (pack text.length offset length) (before ++ text) =
      .ok (some (before ++ copyBack offset length text)) ↔ CopyKept text offset length := by
  have hbits : ¬codeBits text.length > 16 := by
    have hle := codeBits_le hposition
    omega
  have hlength : pack text.length offset length &&& (1 <<< (16 - codeBits text.length) - 1) =
      pack text.length offset length % 2 ^ (16 - codeBits text.length) := by
    rw [Nat.one_shiftLeft, Nat.and_two_pow_sub_one_eq_mod]
  simp only [copyToken, hbits, if_false, hlength, Nat.shiftRight_eq_div_pow, CopyKept, split]
  set offset' := pack text.length offset length / 2 ^ (16 - codeBits text.length) + 1
  set length' := pack text.length offset length % 2 ^ (16 - codeBits text.length) + 3
  by_cases hle : offset' ≤ text.length
  · rw [if_neg (Nat.not_lt.2 hle), copyBack_append before text hle]
    constructor
    · intro hread
      split at hread
      · cases Except.ok.inj hread
      · exact ⟨hle, List.append_cancel_left (Option.some.inj (Except.ok.inj hread))⟩
    · rintro ⟨-, hcopy⟩
      rw [hcopy, if_neg]
      rw [List.length_append]
      exact Nat.not_lt.2 hmax
  · rw [if_pos (Nat.lt_of_not_le hle)]
    constructor
    · intro hread
      cases Except.ok.inj hread
    · rintro ⟨hle', -⟩
      exact absurd hle' hle

/-! ## Groups -/

lemma copiesKept_append {text : Bytes} {tokens tokens' : List Token} :
    CopiesKept text (tokens ++ tokens') ↔
      CopiesKept text tokens ∧ CopiesKept (textAfter text tokens) tokens' := by
  induction tokens generalizing text with
  | nil => simp [CopiesKept, textAfter]
  | cons token tokens ih =>
      cases token with
      | literal byte =>
          simp only [List.cons_append, CopiesKept, ih]
          rfl
      | copy offset length =>
          simp only [List.cons_append, CopiesKept, ih, and_assoc]
          rfl

lemma expand_literal {maximum start flags bits : ℕ} {first : UInt8} {body output : Bytes}
    (hflag : flags % 2 ≠ 1) (hroom : (output ++ [first]).length ≤ maximum) :
    expand maximum start flags (bits + 1) (first :: body) output =
      expand maximum start (flags / 2) bits body (output ++ [first]) := by
  cases body <;> simp only [expand, hflag, if_false, if_neg (Nat.not_lt.2 hroom)]

lemma expand_copy {maximum start flags bits : ℕ} {first second : UInt8}
    {body output output' : Bytes}
    (hflag : flags % 2 = 1)
    (htoken : copyToken maximum (output.length - start) (le16 [first, second] 0) output =
      .ok (some output')) :
    expand maximum start flags (bits + 1) (first :: second :: body) output =
      expand maximum start (flags / 2) bits body output' := by
  simp only [expand, hflag, if_true, htoken]
  rfl

/-- The tokens of one group: the flags tell them apart, and each adds its text. -/
lemma expand_tokens {maximum spare bits : ℕ} {before text rest : Bytes} {tokens : List Token}
    (hfit : TokensFit text tokens) (hkept : CopiesKept text tokens) (hbits : tokens.length ≤ bits)
    (hmax : before.length + (textAfter text tokens).length ≤ maximum)
    (hchunk : (textAfter text tokens).length ≤ 4096) :
    expand maximum before.length (flagsOf spare tokens) bits (tokenBytes text tokens ++ rest)
        (before ++ text) =
      expand maximum before.length spare (bits - tokens.length) rest
        (before ++ textAfter text tokens) := by
  induction tokens generalizing text bits with
  | nil => rfl
  | cons token tokens ih =>
      obtain ⟨bits, rfl⟩ : ∃ more, bits = more + 1 := ⟨bits - 1, by simp at hbits; omega⟩
      simp only [List.length_cons, Nat.add_sub_add_right] at hbits ⊢
      have hbits := Nat.le_of_succ_le_succ hbits
      have hgrows : (token.append text).length ≤ (textAfter (token.append text) tokens).length :=
        length_le_textAfter _ _
      have hnow : before.length + (token.append text).length ≤ maximum :=
        (Nat.add_le_add_left hgrows _).trans hmax
      cases token with
      | literal byte =>
          have hflag : (flagsOf spare (.literal byte :: tokens)) % 2 ≠ 1 := by
            simp [flagsOf, Token.flag]
          have hrest : flagsOf spare (.literal byte :: tokens) / 2 = flagsOf spare tokens := by
            simp [flagsOf, Token.flag]
          have hroom : ((before ++ text) ++ [byte]).length ≤ maximum := by
            rw [List.append_assoc, List.length_append]
            exact hnow
          simp only [tokenBytes, Token.bytes, List.cons_append, List.nil_append]
          rw [expand_literal hflag hroom, hrest, List.append_assoc]
          exact ih hfit.2 hkept hbits hmax hchunk
      | copy offset length =>
          have hflag : (flagsOf spare (.copy offset length :: tokens)) % 2 = 1 := by
            simp [flagsOf, Token.flag]
          have hrest : flagsOf spare (.copy offset length :: tokens) / 2 =
              flagsOf spare tokens := by
            simp only [flagsOf, Token.flag]
            omega
          have hposition : text.length ≤ 4096 :=
            ((length_le_append text _).trans hgrows).trans hchunk
          have htoken := (copyToken_iff hposition hnow).2 (copyKept_of_fits hfit.1 hkept.1)
          have hpack : pack text.length offset length < 2 ^ 16 := pack_lt hfit.1 (by omega)
          have hread : copyToken maximum ((before ++ text).length - before.length)
              (le16 [UInt8.ofNat (pack text.length offset length),
                UInt8.ofNat (pack text.length offset length / 256)] 0) (before ++ text) =
              .ok (some (before ++ copyBack offset length text)) := by
            rw [le16_ofNat hpack, List.length_append, Nat.add_sub_cancel_left]
            exact htoken
          simp only [tokenBytes, Token.bytes, List.cons_append, List.nil_append]
          rw [expand_copy hflag hread, hrest]
          exact ih hfit.2 hkept.2 hbits hmax hchunk

/-- The groups of a chunk. -/
lemma expand_groups {maximum flags : ℕ} {before text : Bytes} {groups : List Group}
    (hfull : GroupsFull groups) (hfit : TokensFit text (groups.flatMap Group.tokens))
    (hkept : CopiesKept text (groups.flatMap Group.tokens))
    (hmax : before.length + (textAfter text (groups.flatMap Group.tokens)).length ≤ maximum)
    (hchunk : (textAfter text (groups.flatMap Group.tokens)).length ≤ 4096) :
    expand maximum before.length flags 0 (groupBytes text groups) (before ++ text) =
      .ok (some (before ++ textAfter text (groups.flatMap Group.tokens))) := by
  induction groups generalizing text flags with
  | nil => rfl
  | cons group groups ih =>
      rw [List.flatMap_cons] at hfit hkept hmax hchunk ⊢
      obtain ⟨hfit, hfitrest⟩ := tokensFit_append.1 hfit
      obtain ⟨hkept, hkeptrest⟩ := copiesKept_append.1 hkept
      rw [textAfter_append] at hmax hchunk ⊢
      have hgrows := length_le_textAfter (textAfter text group.tokens)
        (groups.flatMap Group.tokens)
      have hlength : group.tokens.length ≤ 8 ∧ group.spare < 2 ^ (8 - group.tokens.length) := by
        cases groups with
        | nil => exact hfull.2
        | cons _ _ =>
            obtain ⟨hfull, hspare, -⟩ := hfull
            simp [hfull, hspare]
      have hflags : (UInt8.ofNat (flagsOf group.spare group.tokens)).toNat =
          flagsOf group.spare group.tokens := by
        have hlt := flagsOf_lt hlength.1 hlength.2
        rw [UInt8.toNat_ofNat']
        omega
      simp only [groupBytes, List.cons_append]
      rw [expand, hflags, expand_tokens hfit hkept hlength.1 (by omega) (by omega)]
      cases groups with
      | nil => simp [groupBytes, expand, textAfter]
      | cons next groups =>
          obtain ⟨hfull, hspare, hrest⟩ := hfull
          rw [hfull]
          exact ih hrest hfitrest hkeptrest hmax hchunk

/-! ## Chunks and containers -/

/-- All copy tokens of a container at the misjudged positions still have their effect. -/
def Container.CopiesKept (container : Container) : Prop :=
  ∀ chunk ∈ container, ∀ groups, chunk = .compressed groups →
    Vba.CopiesKept [] (groups.flatMap Group.tokens)

/-- A chunk that stands for something is not empty. -/
lemma body_pos {chunk : Chunk} (h : chunk.Conforms) : 1 ≤ chunk.body.length := by
  have htext := h.text_pos
  cases chunk with
  | raw content => exact htext
  | compressed groups =>
      cases groups with
      | nil => simp [Chunk.text, textAfter] at htext
      | cons group groups => simp [Chunk.body, groupBytes]

/-- The fields of a chunk header. -/
lemma header_fields {chunk : Chunk} (h : chunk.Conforms) :
    chunk.header < 2 ^ 16 ∧ (chunk.header &&& 0x0FFF) + 3 = chunk.body.length + 2 ∧
      chunk.header &&& 0x7000 = 0x3000 ∧
      (chunk.header &&& 0x8000 = 0 ↔ ∃ content, chunk = .raw content) := by
  have hpos := body_pos h
  have hle := h.body_le
  have hsize : chunk.header &&& 0x0FFF = chunk.header % 0x1000 := by
    simpa using and_field chunk.header 12 0
  have hsignature : chunk.header &&& 0x7000 = chunk.header / 0x1000 % 8 * 0x1000 := by
    simpa using and_field chunk.header 3 12
  have hflag : chunk.header &&& 0x8000 = chunk.header / 0x8000 % 2 * 0x8000 := by
    simpa using and_field chunk.header 1 15
  rw [hsize, hsignature, hflag]
  cases chunk with
  | raw content =>
      simp only [Chunk.header] at hpos hle ⊢
      refine ⟨by omega, by omega, by omega, ⟨fun _ => ⟨content, rfl⟩, fun _ => by omega⟩⟩
  | compressed groups =>
      simp only [Chunk.header] at hpos hle ⊢
      refine ⟨by omega, by omega, by omega, ⟨fun hzero => by omega, ?_⟩⟩
      rintro ⟨content, hraw⟩
      cases hraw

/-- A chunk behind its header adds its text. -/
lemma expandChunk_of_conforms {maximum : ℕ} {chunk : Chunk} {output : Bytes} (h : chunk.Conforms)
    (hkept : ∀ groups, chunk = .compressed groups →
      CopiesKept [] (groups.flatMap Group.tokens))
    (hmax : output.length + chunk.text.length ≤ maximum) :
    expandChunk maximum chunk.header chunk.body output = .ok (some (output ++ chunk.text)) := by
  obtain ⟨-, -, -, hflag⟩ := header_fields h
  cases chunk with
  | raw content =>
      rw [expandChunk, if_pos (hflag.2 ⟨content, rfl⟩)]
      rfl
  | compressed groups =>
      have hnot : ¬(Chunk.compressed groups).header &&& 0x8000 = 0 := by
        rw [hflag]
        rintro ⟨content, hraw⟩
        cases hraw
      obtain ⟨hfull, hfit⟩ := h.groups groups rfl
      rw [expandChunk, if_neg hnot]
      have hgroups := @expand_groups maximum 0 output [] groups hfull hfit (hkept groups rfl)
        hmax h.text_le
      rwa [List.append_nil] at hgroups

/-- One pass of the loop over the chunks. -/
lemma chunksFrom_next {maximum fuel : ℕ} {data output output' : Bytes}
    (hlength : 2 ≤ data.length) (hsignature : le16 data 0 &&& 0x7000 = 0x3000)
    (hsize : (le16 data 0 &&& 0x0FFF) + 3 ≤ data.length)
    (hexpand : expandChunk maximum (le16 data 0)
      (slice data 2 ((le16 data 0 &&& 0x0FFF) + 3)) output = .ok (some output'))
    (hroom : output'.length ≤ maximum) :
    chunksFrom maximum (fuel + 1) data output =
      chunksFrom maximum fuel (data.drop ((le16 data 0 &&& 0x0FFF) + 3)) output' := by
  cases data with
  | nil => simp at hlength
  | cons byte data =>
      have hok : ¬((byte :: data).length < 2 ∨ le16 (byte :: data) 0 &&& 0x7000 ≠ 0x3000 ∨
          (byte :: data).length < (le16 (byte :: data) 0 &&& 0x0FFF) + 3) := by
        rw [hsignature]
        omega
      simp only [chunksFrom, hok, if_false, hexpand, bind, Except.bind,
        if_neg (Nat.not_lt.2 hroom)]

/-- The chunks of a container add their texts. -/
lemma chunksFrom_of_conforms {maximum fuel : ℕ} {container : Container} {output : Bytes}
    (h : container.Conforms) (hkept : Container.CopiesKept container)
    (hfuel : (container.flatMap Chunk.bytes).length ≤ fuel)
    (hmax : output.length + (Container.text container).length ≤ maximum) :
    chunksFrom maximum fuel (container.flatMap Chunk.bytes) output =
      .ok (some (output ++ Container.text container)) := by
  induction container generalizing fuel output with
  | nil => cases fuel <;> simp [chunksFrom, Container.text]
  | cons chunk container ih =>
      have hchunk : chunk.Conforms := h chunk List.mem_cons_self
      obtain ⟨hlt, hsize, hsignature, -⟩ := header_fields hchunk
      simp only [Container.text, List.flatMap_cons, List.length_append] at hmax hfuel ⊢
      have hlength : chunk.bytes.length = chunk.body.length + 2 := by simp [Chunk.bytes]
      obtain ⟨fuel, rfl⟩ : ∃ more, fuel = more + 1 := ⟨fuel - 1, by omega⟩
      have hexpand := expandChunk_of_conforms hchunk (hkept chunk List.mem_cons_self)
        (show output.length + chunk.text.length ≤ maximum by omega)
      have hdata : chunk.bytes ++ container.flatMap Chunk.bytes =
          UInt8.ofNat chunk.header :: UInt8.ofNat (chunk.header / 256) ::
            (chunk.body ++ container.flatMap Chunk.bytes) := rfl
      have hbody : slice (chunk.bytes ++ container.flatMap Chunk.bytes) 2 (chunk.body.length + 2) =
          chunk.body := by
        rw [hdata]
        simp [slice]
      have hdrop : (chunk.bytes ++ container.flatMap Chunk.bytes).drop (chunk.body.length + 2) =
          container.flatMap Chunk.bytes := by
        rw [← hlength, List.drop_left]
      have hrest := @ih fuel (output ++ chunk.text)
        (fun other hmem => h other (List.mem_cons_of_mem _ hmem))
        (fun other hmem => hkept other (List.mem_cons_of_mem _ hmem)) (by omega)
        (by rw [List.length_append, Container.text]; omega)
      have hread : le16 (chunk.bytes ++ container.flatMap Chunk.bytes) 0 = chunk.header := by
        rw [hdata, le16_ofNat hlt]
      have htotal : (chunk.bytes ++ container.flatMap Chunk.bytes).length =
          chunk.body.length + 2 + (container.flatMap Chunk.bytes).length := by
        rw [List.length_append, hlength]
      have hnext := @chunksFrom_next maximum fuel _ output (output ++ chunk.text)
        (show 2 ≤ (chunk.bytes ++ container.flatMap Chunk.bytes).length by omega)
        (by rw [hread, hsignature]) (by rw [hread]; omega) (by rw [hread, hsize, hbody, hexpand])
        (by rw [List.length_append]; omega)
      rw [hnext, hread, hsize, hdrop, hrest, List.append_assoc]
      rfl

/-- A container is decompressed to what it stands for, as long as the copy tokens at the misjudged
positions still have their effect. -/
theorem decompress_container {container : Container} {maximum : ℕ} (h : container.Conforms)
    (hmax : (Container.text container).length ≤ maximum)
    (hkept : Container.CopiesKept container) :
    decompressVba (Container.bytes container) maximum = .ok (some (Container.text container)) := by
  have hchunks := @chunksFrom_of_conforms maximum _ container [] h hkept (Nat.le_refl _)
    (by simpa using hmax)
  simpa [decompressVba, Container.bytes] using hchunks

/-! ### Copy tokens before and at position 16 -/

/-- `abc`, and a copy of it. -/
def abcTwice : Container :=
  [.compressed [⟨[.literal 0x61, .literal 0x62, .literal 0x63, .copy 3 3], 0⟩]]

/-- A copy token at position 3 is split as it was packed. -/
theorem abc_twice_decompressed :
    decompressVba (Container.bytes abcTwice) 6 =
      .ok (some [0x61, 0x62, 0x63, 0x61, 0x62, 0x63]) := by
  refine @decompress_container abcTwice 6 ?_ (by decide) ?_
  · intro chunk hchunk
    obtain rfl := List.mem_singleton.1 hchunk
    exact conforms_compressed (by decide +kernel)
  · intro chunk hchunk groups hgroups
    obtain rfl := List.mem_singleton.1 hchunk
    obtain rfl := Chunk.compressed.inj hgroups
    refine ⟨?_, trivial⟩
    rintro ⟨k, hk, hposition⟩
    have hlarge : 2 ^ 4 ≤ 2 ^ k := Nat.pow_le_pow_right (by decide) hk
    rw [← hposition] at hlarge
    exact absurd hlarge (by decide)

/-- Sixteen letters, and a copy of the first three. -/
def lettersAndCopy : Container :=
  [.compressed
    [⟨[.literal 0x61, .literal 0x62, .literal 0x63, .literal 0x64, .literal 0x65, .literal 0x66,
        .literal 0x67, .literal 0x68], 0⟩,
      ⟨[.literal 0x69, .literal 0x6A, .literal 0x6B, .literal 0x6C, .literal 0x6D, .literal 0x6E,
        .literal 0x6F, .literal 0x70], 0⟩,
      ⟨[.copy 16 3], 0⟩]]

/-- At position 16 the offset 16 is read as 31, and the container is refused. -/
theorem letters_and_copy_refused :
    lettersAndCopy.Conforms ∧ (Container.text lettersAndCopy).length ≤ 4096 ∧
      decompressVba (Container.bytes lettersAndCopy) 4096 ≠
        .ok (some (Container.text lettersAndCopy)) := by
  refine ⟨fun chunk hchunk => ?_, by decide +kernel, by decide +kernel⟩
  obtain rfl := List.mem_singleton.1 hchunk
  exact conforms_compressed (by decide +kernel)

end Vba

end AVBox
