import AVBox.Analyzers.ExecutableErrors
import AVBox.Lib.Layout
import Mathlib.Data.List.DropRight

/-!
# Amiga executables read back

A HUNK file and how it is written (`HunkFile.encode`), in the layout that `_parse_hunk` reads:
counted and zero-terminated lists, with flags in the two high bits of some words.

* `parseHunk_encode` says what the reader returns for such a file.
* `parseHunk_ne_ok` says that it does not accept the beginning of one.  Reads that succeed in the
  beginning of a file succeed alike in all of it (`Extends`), so the reader would have met the last
  record of the file before its end.
-/

namespace AVBox

open Binary Fallible Loop Partitions

namespace Executable

/-! ## Files -/

/-- The kinds of block that have contents. -/
inductive BlockKind
  | code
  | data
  | debug
  deriving DecidableEq, Repr

inductive RelocationKind
  | reloc32
  | reloc16
  | reloc8
  deriving DecidableEq, Repr

/-- A record without the flags of its type word. -/
inductive HunkItem
  | block (kind : BlockKind) (content : Bytes)
  | bss (longs : ℕ)
  | relocations (kind : RelocationKind) (groups : List Relocations)
  | symbols (symbols : List HunkSymbol)
  | ended
  deriving DecidableEq

structure HunkEntry where
  memoryFlags : ℕ
  item : HunkItem
  deriving DecidableEq

structure HunkFile where
  residentNames : List PyStr
  firstHunk : ℕ
  declaredHunks : List DeclaredHunk
  entries : List HunkEntry
  deriving DecidableEq

/-! ### Names -/

/-- A name of Latin-1 characters that no padding is taken for a part of. -/
structure IsName (name : PyStr) : Prop where
  pos : name ≠ []
  short : name.length ≤ 4096
  latin : ∀ c ∈ name, c.val < 256
  last : name.getLast? ≠ some 0

/-- The number of longs that a name fills. -/
def longsOf (name : PyStr) : ℕ := (name.length + 3) / 4

/-- The bytes of a name, with NUL to the next long. -/
def paddedName (name : PyStr) : Bytes :=
  latin1Bytes name ++ List.replicate (longsOf name * 4 - name.length) 0

def encodeName (name : PyStr) : Bytes := beBytes (longsOf name) ++ paddedName name

/-! ### Records -/

def encodeGroup (group : Relocations) : Bytes :=
  beBytes group.offsets.length ++ (beBytes group.targetHunk ++ group.offsets.flatMap beBytes)

def encodeSymbol (symbol : HunkSymbol) : Bytes := encodeName symbol.name ++ beBytes symbol.value

namespace HunkItem

def typeId : HunkItem → ℕ
  | .block .code _ => 0x3E9
  | .block .data _ => 0x3EA
  | .block .debug _ => 0x3F1
  | .bss _ => 0x3EB
  | .relocations .reloc32 _ => 0x3EC
  | .relocations .reloc16 _ => 0x3ED
  | .relocations .reloc8 _ => 0x3EE
  | .symbols _ => 0x3F0
  | .ended => 0x3F2

def type : HunkItem → String
  | .block .code _ => "HUNK_CODE"
  | .block .data _ => "HUNK_DATA"
  | .block .debug _ => "HUNK_DEBUG"
  | .bss _ => "HUNK_BSS"
  | .relocations .reloc32 _ => "HUNK_RELOC32"
  | .relocations .reloc16 _ => "HUNK_RELOC16"
  | .relocations .reloc8 _ => "HUNK_RELOC8"
  | .symbols _ => "HUNK_SYMBOL"
  | .ended => "HUNK_END"

def encode : HunkItem → Bytes
  | .block _ content => beBytes (content.length / 4) ++ content
  | .bss longs => beBytes longs
  | .relocations _ groups => groups.flatMap encodeGroup ++ beBytes 0
  | .symbols table => table.flatMap encodeSymbol ++ beBytes 0
  | .ended => []

/-- What is reported of a record. -/
def body : HunkItem → HunkBody
  | .block _ content => .block (content.length / 4) content.length
  | .bss longs => .block longs (longs * 4)
  | .relocations _ groups => .relocations groups
  | .symbols table => .symbols table
  | .ended => .ended

/-- A record whose numbers fit into words, whose groups are of a size that is read, and whose names
are read back. -/
def Valid : HunkItem → Prop
  | .block _ content => content.length % 4 = 0 ∧ content.length / 4 < 2 ^ 32
  | .bss longs => longs < 2 ^ 32
  | .relocations _ groups => ∀ group ∈ groups, group.offsets ≠ [] ∧
      group.offsets.length ≤ maxSymbols ∧ group.targetHunk < 2 ^ 32 ∧
        ∀ offset ∈ group.offsets, offset < 2 ^ 32
  | .symbols table => ∀ symbol ∈ table, IsName symbol.name ∧ symbol.value < 2 ^ 32
  | .ended => True

/-- No more symbols than a record may have. -/
def FewSymbols : HunkItem → Prop
  | .symbols table => table.length ≤ maxSymbols
  | _ => True

/-- How many hunks the record ends. -/
def ends : HunkItem → ℕ
  | .ended => 1
  | _ => 0

end HunkItem

namespace HunkEntry

def encode (entry : HunkEntry) : Bytes :=
  beBytes (entry.memoryFlags * 2 ^ 30 + entry.item.typeId) ++ entry.item.encode

/-- What is reported of a record, in a hunk with this number. -/
def record (entry : HunkEntry) (hunkIndex : ℕ) : HunkRecord :=
  { typeId := entry.item.typeId
    type := entry.item.type
    memoryFlags := entry.memoryFlags
    hunkIndex := hunkIndex
    body := entry.item.body }

end HunkEntry

/-- The records of these entries, the first of which is in a hunk with this number. -/
def recordsFrom : ℕ → List HunkEntry → List HunkRecord
  | _, [] => []
  | hunkIndex, entry :: entries =>
      entry.record hunkIndex :: recordsFrom (hunkIndex + entry.item.ends) entries

namespace HunkFile

def lastHunk (file : HunkFile) : ℕ := file.firstHunk + file.declaredHunks.length - 1

/-- The words of the size table. -/
def sizeTable (file : HunkFile) : List ℕ :=
  file.declaredHunks.map fun hunk => hunk.memoryFlags * 2 ^ 30 + hunk.sizeLongs

def encode (file : HunkFile) : Bytes :=
  beBytes 0x3F3 ++ (file.residentNames.flatMap encodeName ++ (beBytes 0 ++
    ([file.declaredHunks.length, file.firstHunk, file.lastHunk].flatMap beBytes ++
      (file.sizeTable.flatMap beBytes ++ file.entries.flatMap HunkEntry.encode))))

def header (file : HunkFile) : HunkHeader :=
  { residentNames := file.residentNames
    hunkCount := file.declaredHunks.length
    firstHunk := file.firstHunk
    lastHunk := file.lastHunk
    declaredHunks := file.declaredHunks }

def records (file : HunkFile) : List HunkRecord := recordsFrom file.firstHunk file.entries

/-- A file with as many ends as hunks, the last of which is its last record. -/
structure Valid (file : HunkFile) : Prop where
  names : ∀ name ∈ file.residentNames, IsName name
  table_pos : 1 ≤ file.declaredHunks.length
  table_le : file.declaredHunks.length ≤ 1024
  last : file.lastHunk < 2 ^ 32
  sizes : ∀ hunk ∈ file.declaredHunks, hunk.memoryFlags < 4 ∧ hunk.sizeLongs < 2 ^ 30
  entries_le : file.entries.length ≤ 4096
  entries : ∀ entry ∈ file.entries, entry.memoryFlags < 4 ∧ entry.item.Valid
  ended : ∃ before flags, file.entries = before ++ [⟨flags, .ended⟩] ∧
    (before.map fun entry => entry.item.ends).sum + 1 = file.declaredHunks.length

end HunkFile

/-! ## Reading the parts -/

variable {data : Bytes} {cursor : ℕ}

/-! ### Names -/

lemma longsOf_le {name : PyStr} (h : IsName name) : longsOf name ≤ 1024 := by
  have hshort := h.short
  unfold longsOf
  omega

lemma longsOf_pos {name : PyStr} (h : IsName name) : 0 < longsOf name := by
  have hpos := List.length_pos_iff.2 h.pos
  unfold longsOf
  omega

lemma length_paddedName (name : PyStr) : (paddedName name).length = longsOf name * 4 := by
  rw [paddedName, List.length_append, latin1Bytes, List.length_map, List.length_replicate]
  unfold longsOf
  omega

lemma length_encodeName (name : PyStr) : (encodeName name).length = 4 + longsOf name * 4 := by
  rw [encodeName, List.length_append, length_beBytes, length_paddedName]

lemma rstripNul_append_replicate (bytes : Bytes) (count : ℕ) :
    rstripNul (bytes ++ List.replicate count 0) = rstripNul bytes := by
  unfold rstripNul
  rw [List.reverse_append, List.reverse_replicate, List.dropWhile_append_of_pos]
  intro byte hbyte
  exact decide_eq_true (List.eq_of_mem_replicate hbyte)

lemma rstripNul_latin1Bytes {name : PyStr} (h : IsName name) :
    rstripNul (latin1Bytes name) = latin1Bytes name := by
  refine List.rdropWhile_eq_self_iff.2 fun hpos hzero => h.last ?_
  have hlast := List.getLast?_eq_some_getLast h.pos
  have hlt := h.latin _ (List.getLast_mem h.pos)
  simp only [latin1Bytes, List.getLast_map, decide_eq_true_eq] at hzero
  have hval := congrArg UInt8.toNat hzero
  rw [UInt8.toNat_ofNat', Nat.mod_eq_of_lt hlt] at hval
  rw [hlast]
  exact congrArg some (Fin.ext hval)

/-- Padding is stripped from a name. -/
lemma latin1_paddedName {name : PyStr} (h : IsName name) :
    latin1 (rstripNul (paddedName name)) = name := by
  rw [paddedName, rstripNul_append_replicate, rstripNul_latin1Bytes h, latin1_latin1Bytes h.latin]

/-- What stands at a name. -/
lemma at_name {name : PyStr} (h : At data cursor (encodeName name)) (hname : IsName name) :
    be32 data cursor = longsOf name ∧
      latin1 (rstripNul (slice data (cursor + 4) (cursor + 4 + longsOf name * 4))) = name := by
  have hle := longsOf_le hname
  have hslice := h.right.slice_eq
  rw [length_paddedName, length_beBytes] at hslice
  exact ⟨h.left.be32_eq (by omega), by rw [hslice, latin1_paddedName hname]⟩

lemma hunkResident_of_name {name : PyStr} (h : At data cursor (encodeName name))
    (hname : IsName name) (names : List PyStr) :
    hunkResident data (cursor, names) =
      .ok (.again (cursor + (encodeName name).length, names ++ [name])) := by
  obtain ⟨hlongs, htext⟩ := at_name h hname
  have hstop := h.stop_le
  have hpos := longsOf_pos hname
  have hle := longsOf_le hname
  rw [length_encodeName] at hstop ⊢
  unfold hunkResident
  dsimp only
  rw [need_bind (by omega), hlongs, if_neg (by omega), if_neg (by unfold maxName; omega),
    need_bind (by omega), htext, Nat.add_assoc]
  rfl

lemma hunkSymbol_of_symbol {symbol : HunkSymbol} (h : At data cursor (encodeSymbol symbol))
    (hname : IsName symbol.name) (hvalue : symbol.value < 2 ^ 32) {symbols : List HunkSymbol}
    (hfew : symbols.length < maxSymbols) :
    hunkSymbol data (cursor, symbols) =
      .ok (.again (cursor + (encodeSymbol symbol).length, symbols ++ [symbol])) := by
  obtain ⟨hlongs, htext⟩ := at_name h.left hname
  have hstop := h.stop_le
  have hpos := longsOf_pos hname
  have hle := longsOf_le hname
  have hword := h.right.be32_eq hvalue
  rw [length_encodeName, ← Nat.add_assoc] at hword
  have hlength : (encodeSymbol symbol).length = 8 + longsOf symbol.name * 4 := by
    rw [encodeSymbol, List.length_append, length_encodeName, length_beBytes]
    omega
  rw [hlength] at hstop ⊢
  unfold hunkSymbol
  dsimp only
  rw [need_bind (by omega), hlongs, if_neg (by omega), if_neg (by unfold maxName; omega),
    need_bind (by omega), htext, hword, Nat.add_assoc]
  rfl

lemma hunkGroup_of_group {group : Relocations} (h : At data cursor (encodeGroup group))
    (hoffsets : group.offsets ≠ []) (hfew : group.offsets.length ≤ maxSymbols)
    (htarget : group.targetHunk < 2 ^ 32) (hwords : ∀ offset ∈ group.offsets, offset < 2 ^ 32)
    (name : String) (groups : List Relocations) :
    hunkGroup data name (cursor, groups) =
      .ok (.again (cursor + (encodeGroup group).length, groups ++ [group])) := by
  have hcount : be32 data cursor = group.offsets.length :=
    h.left.be32_eq (Nat.lt_of_le_of_lt hfew (by decide))
  have hstop := h.stop_le
  have hpos := List.length_pos_iff.2 hoffsets
  have htarget := h.right.left.be32_eq htarget
  have hwords := h.right.right.words_eq hwords
  have hlength : (encodeGroup group).length = 8 + group.offsets.length * 4 := by
    simp only [encodeGroup, List.length_append, length_beBytes, List.length_flatMap,
      List.map_const', List.sum_replicate_nat]
    omega
  rw [length_beBytes] at htarget
  rw [length_beBytes, length_beBytes, Nat.add_assoc] at hwords
  rw [hlength] at hstop ⊢
  unfold hunkGroup
  dsimp only
  rw [need_bind (by omega), hcount, if_neg (by omega), if_neg (by omega), need_bind (by omega),
    htarget, unpackFrom_of_fits _ (by omega), hwords, Nat.add_assoc]
  rfl

/-! ### Lists that a zero ends -/

section Lists

variable {α : Type} {encode : α → Bytes} {items : List α}

lemma foldl_read (encode : α → Bytes) (items : List α) (cursor : ℕ) (found : List α) :
    items.foldl (fun s item => (s.1 + (encode item).length, s.2 ++ [item])) (cursor, found) =
      (cursor + (items.flatMap encode).length, found ++ items) := by
  induction items generalizing cursor found with
  | nil => simp
  | cons item items ih =>
      rw [List.foldl_cons, ih, List.flatMap_cons, List.length_append, Nat.add_assoc,
        List.append_assoc, List.singleton_append]

lemma length_le_flatMap (h : ∀ item ∈ items, 0 < (encode item).length) :
    items.length ≤ (items.flatMap encode).length := by
  induction items with
  | nil => exact Nat.le_refl 0
  | cons item items ih =>
      obtain ⟨hitem, hitems⟩ := List.forall_mem_cons.1 h
      have hrest := ih hitems
      rw [List.flatMap_cons, List.length_append, List.length_cons]
      omega

variable {body : ℕ × List α → Except Exc (Next (ℕ × List α) (ℕ × List α))} {limit : ℕ}
  (hpass : ∀ item ∈ items, ∀ cursor (found : List α), At data cursor (encode item) →
    found.length < limit →
      body (cursor, found) = .ok (.again (cursor + (encode item).length, found ++ [item])))

include hpass

/-- A loop reads as many items as it may. -/
lemma forever_read {tail : Bytes} (h : At data cursor (items.flatMap encode ++ tail))
    (hlimit : items.length ≤ limit) (fuel : ℕ) :
    forever .unending body (items.length + fuel) (cursor, []) =
      forever .unending body fuel (cursor + (items.flatMap encode).length, items) := by
  have hloop := (@forever_items _ _ .unending _ body α
    (fun s item => (s.1 + (encode item).length, s.2 ++ [item]))
    (fun s rest => At data s.1 (rest.flatMap encode ++ tail) ∧ s.2.length + rest.length ≤ limit ∧
      ∀ item ∈ rest, item ∈ items) ?_ items (cursor, []) ⟨h, by simpa using hlimit, by simp⟩ fuel).1
  · rw [hloop, foldl_read, List.nil_append]
  · rintro ⟨cursor, found⟩ item rest ⟨hat, hlength, hmem⟩
    rw [List.flatMap_cons, List.append_assoc] at hat
    obtain ⟨hitem, hmem⟩ := List.forall_mem_cons.1 hmem
    change found.length + (rest.length + 1) ≤ limit at hlength
    refine ⟨hpass item hitem cursor found hat.left (by omega), hat.right, ?_, hmem⟩
    change (found ++ [item]).length + rest.length ≤ limit
    rw [List.length_append, List.length_singleton]
    omega

/-- A loop reads the items up to the zero behind them. -/
lemma forever_zero (hpos : ∀ item ∈ items, 0 < (encode item).length)
    (hzero : ∀ cursor (found : List α), At data cursor (beBytes 0) →
      body (cursor, found) = .ok (.done (cursor + 4, found)))
    (h : At data cursor (items.flatMap encode ++ beBytes 0)) (hlimit : items.length ≤ limit) :
    forever .unending body (data.length + 1) (cursor, []) =
      .ok (cursor + (items.flatMap encode ++ beBytes 0).length, items) := by
  have hlength := length_le_flatMap hpos
  have hstop := h.left.stop_le
  obtain ⟨fuel, hfuel⟩ : ∃ fuel, data.length + 1 = items.length + (fuel + 1) :=
    ⟨data.length - items.length, by omega⟩
  rw [hfuel, forever_read hpass h hlimit, forever_of_done (hzero _ _ h.right), List.length_append,
    length_beBytes, Nat.add_assoc]

end Lists

lemma hunkResident_of_zero (h : At data cursor (beBytes 0)) (names : List PyStr) :
    hunkResident data (cursor, names) = .ok (.done (cursor + 4, names)) := by
  have hstop := h.stop_le
  rw [length_beBytes] at hstop
  unfold hunkResident
  dsimp only
  rw [need_bind hstop, h.be32_eq (by decide), if_pos rfl]
  rfl

lemma hunkSymbol_of_zero (h : At data cursor (beBytes 0)) (symbols : List HunkSymbol) :
    hunkSymbol data (cursor, symbols) = .ok (.done (cursor + 4, symbols)) := by
  have hstop := h.stop_le
  rw [length_beBytes] at hstop
  unfold hunkSymbol
  dsimp only
  rw [need_bind hstop, h.be32_eq (by decide), if_pos rfl]
  rfl

lemma hunkGroup_of_zero (h : At data cursor (beBytes 0)) (name : String)
    (groups : List Relocations) :
    hunkGroup data name (cursor, groups) = .ok (.done (cursor + 4, groups)) := by
  have hstop := h.stop_le
  rw [length_beBytes] at hstop
  unfold hunkGroup
  dsimp only
  rw [need_bind hstop, h.be32_eq (by decide), if_pos rfl]
  rfl

/-! ### Records -/

section Bodies

variable {hunkType : ℕ} (name : String)

lemma hunkBody_of_block (htype : hunkType ∈ [0x3E9, 0x3EA, 0x3F1]) {content : Bytes}
    (h : At data cursor (beBytes (content.length / 4) ++ content))
    (hlongs : content.length % 4 = 0) (hsize : content.length / 4 < 2 ^ 32) :
    hunkBody data name hunkType cursor =
      .ok (.block (content.length / 4) content.length, cursor + (4 + content.length)) := by
  have hstop := h.stop_le
  have hfull : content.length / 4 * 4 = content.length := by omega
  rw [List.length_append, length_beBytes] at hstop
  simp only [List.mem_cons, List.not_mem_nil, or_false] at htype
  unfold hunkBody
  rw [if_pos (by simp only [List.mem_cons]; omega), need_bind (by omega), h.left.be32_eq hsize]
  dsimp only
  rw [if_pos (by omega), hfull, need_bind (by omega), Nat.add_assoc]
  rfl

lemma hunkBody_of_bss {longs : ℕ} (h : At data cursor (beBytes longs)) (hsize : longs < 2 ^ 32) :
    hunkBody data name 0x3EB cursor = .ok (.block longs (longs * 4), cursor + 4) := by
  have hstop := h.stop_le
  rw [length_beBytes] at hstop
  unfold hunkBody
  rw [if_pos (by decide), need_bind hstop, h.be32_eq hsize]
  rfl

lemma hunkBody_of_relocations (htype : hunkType ∈ [0x3EC, 0x3ED, 0x3EE])
    {groups : List Relocations} (h : At data cursor (groups.flatMap encodeGroup ++ beBytes 0))
    (hgroups : ∀ group ∈ groups, group.offsets ≠ [] ∧ group.offsets.length ≤ maxSymbols ∧
      group.targetHunk < 2 ^ 32 ∧ ∀ offset ∈ group.offsets, offset < 2 ^ 32) :
    hunkBody data name hunkType cursor =
      .ok (.relocations groups, cursor + (groups.flatMap encodeGroup ++ beBytes 0).length) := by
  have hpass : ∀ group ∈ groups, ∀ cursor (found : List Relocations),
      At data cursor (encodeGroup group) → found.length < groups.length →
        hunkGroup data name (cursor, found) =
          .ok (.again (cursor + (encodeGroup group).length, found ++ [group])) := by
    intro group hgroup cursor found hat _
    obtain ⟨hoffsets, hfew, htarget, hwords⟩ := hgroups group hgroup
    exact hunkGroup_of_group hat hoffsets hfew htarget hwords name found
  have hpos : ∀ group ∈ groups, 0 < (encodeGroup group).length := fun group _ => by
    rw [encodeGroup, List.length_append, length_beBytes]
    omega
  have hloop := forever_zero hpass hpos (fun _ found hat => hunkGroup_of_zero hat name found) h
    (Nat.le_refl _)
  simp only [List.mem_cons, List.not_mem_nil, or_false] at htype
  unfold hunkBody
  rw [if_neg (by simp only [List.mem_cons, List.not_mem_nil, or_false]; omega),
    if_pos (by simp only [List.mem_cons]; omega), hloop]
  rfl

/-- The pass over a symbol, for the loop. -/
lemma hunkSymbol_pass {symbols : List HunkSymbol}
    (hsymbols : ∀ symbol ∈ symbols, IsName symbol.name ∧ symbol.value < 2 ^ 32) :
    ∀ symbol ∈ symbols, ∀ cursor (found : List HunkSymbol), At data cursor (encodeSymbol symbol) →
      found.length < maxSymbols → hunkSymbol data (cursor, found) =
        .ok (.again (cursor + (encodeSymbol symbol).length, found ++ [symbol])) :=
  fun symbol hsymbol _ _ hat hfew =>
    hunkSymbol_of_symbol hat (hsymbols symbol hsymbol).1 (hsymbols symbol hsymbol).2 hfew

lemma length_encodeSymbol_pos (symbol : HunkSymbol) : 0 < (encodeSymbol symbol).length := by
  rw [encodeSymbol, List.length_append, length_beBytes]
  omega

lemma hunkBody_of_symbols {symbols : List HunkSymbol}
    (h : At data cursor (symbols.flatMap encodeSymbol ++ beBytes 0))
    (hsymbols : ∀ symbol ∈ symbols, IsName symbol.name ∧ symbol.value < 2 ^ 32)
    (hfew : symbols.length ≤ maxSymbols) :
    hunkBody data name 0x3F0 cursor =
      .ok (.symbols symbols, cursor + (symbols.flatMap encodeSymbol ++ beBytes 0).length) := by
  have hloop := forever_zero (hunkSymbol_pass hsymbols)
    (fun symbol _ => length_encodeSymbol_pos symbol)
    (fun _ found hat => hunkSymbol_of_zero hat found) h hfew
  unfold hunkBody
  rw [if_neg (by decide), if_neg (by decide), if_pos rfl, hloop]
  rfl

end Bodies

/-- The body of a record is read back. -/
lemma hunkBody_of_item {item : HunkItem} (h : At data cursor item.encode) (hvalid : item.Valid)
    (hfew : item.FewSymbols) (name : String) :
    hunkBody data name item.typeId cursor = .ok (item.body, cursor + item.encode.length) := by
  cases item with
  | block kind content =>
      have htype : (HunkItem.block kind content).typeId ∈ [0x3E9, 0x3EA, 0x3F1] := by
        cases kind <;> simp [HunkItem.typeId]
      rw [hunkBody_of_block name htype h hvalid.1 hvalid.2, HunkItem.encode, List.length_append,
        length_beBytes]
      rfl
  | bss longs => exact hunkBody_of_bss name h hvalid
  | relocations kind groups =>
      have htype : (HunkItem.relocations kind groups).typeId ∈ [0x3EC, 0x3ED, 0x3EE] := by
        cases kind <;> simp [HunkItem.typeId]
      exact hunkBody_of_relocations name htype h hvalid
  | symbols table => exact hunkBody_of_symbols name h hvalid hfew
  | ended => rfl

/-! ### The loop over the records -/

lemma typeId_lt (item : HunkItem) : item.typeId < 2 ^ 30 := by
  unfold HunkItem.typeId
  split <;> decide

lemma named_typeId (item : HunkItem) (unknown : String) :
    named hunkTypes item.typeId unknown = item.type := by
  unfold HunkItem.typeId HunkItem.type
  split <;> rfl

lemma body_ends (item : HunkItem) : (if item.body = .ended then 1 else 0) = item.ends := by
  cases item <;> rfl

lemma body_ne_unsupported (item : HunkItem) : item.body ≠ .unsupported := by
  cases item <;> simp [HunkItem.body]

/-- The state after a record. -/
def HunkState.read (state : HunkState) (entry : HunkEntry) : HunkState :=
  { cursor := state.cursor + entry.encode.length
    records := state.records ++ [entry.record state.currentHunk]
    currentHunk := state.currentHunk + entry.item.ends
    ended := state.ended + entry.item.ends }

variable {state : HunkState} {entry : HunkEntry}

lemma hunkPass_of_entry (h : At data state.cursor entry.encode) (hflags : entry.memoryFlags < 4)
    (hvalid : entry.item.Valid) (hfew : entry.item.FewSymbols) (tableSize : ℕ) :
    hunkPass data tableSize state =
      if (state.read entry).ended = tableSize then .ok (.done (state.read entry, none))
      else if (state.read entry).records.length > maxHeaders then
        .error (.executable "HUNK record count exceeds limit")
      else .ok (.again (state.read entry)) := by
  have htype := typeId_lt entry.item
  have hstop := h.left.stop_le
  have hword := h.left.be32_eq (show _ < 2 ^ 32 by omega)
  have hbody := hunkBody_of_item h.right hvalid hfew
  rw [length_beBytes] at hstop hbody
  unfold hunkPass
  dsimp only
  rw [if_neg (by omega), need_bind hstop, hword,
    show (entry.memoryFlags * 2 ^ 30 + entry.item.typeId) % 2 ^ 30 = entry.item.typeId by omega,
    show (entry.memoryFlags * 2 ^ 30 + entry.item.typeId) / 2 ^ 30 = entry.memoryFlags by omega,
    named_typeId, hbody]
  dsimp only [bind, Except.bind]
  rw [body_ends, if_neg (body_ne_unsupported _)]
  have hread : state.read entry = ⟨state.cursor + 4 + entry.item.encode.length,
      state.records ++ [⟨entry.item.typeId, entry.item.type, entry.memoryFlags, state.currentHunk,
        entry.item.body⟩], state.currentHunk + entry.item.ends, state.ended + entry.item.ends⟩ := by
    rw [HunkState.read, HunkEntry.encode, List.length_append, length_beBytes, ← Nat.add_assoc]
    rfl
  rw [hread]
  rfl

/-- The state after records, in full. -/
lemma foldl_state (entries : List HunkEntry) (state : HunkState) :
    entries.foldl HunkState.read state =
      { cursor := state.cursor + (entries.flatMap HunkEntry.encode).length
        records := state.records ++ recordsFrom state.currentHunk entries
        currentHunk := state.currentHunk + (entries.map fun entry => entry.item.ends).sum
        ended := state.ended + (entries.map fun entry => entry.item.ends).sum } := by
  induction entries generalizing state with
  | nil => simp [recordsFrom]
  | cons entry entries ih =>
      rw [List.foldl_cons, ih]
      simp only [HunkState.read, recordsFrom, List.flatMap_cons, List.length_append, List.map_cons,
        List.sum_cons, Nat.add_assoc, List.append_assoc, List.singleton_append]

lemma length_encode_pos (entry : HunkEntry) : 0 < entry.encode.length := by
  rw [HunkEntry.encode, List.length_append, length_beBytes]
  omega

/-- An end, with these flags. -/
def endRecord (flags : ℕ) : HunkEntry := ⟨flags, .ended⟩

/-- The loop reads the records up to the last end. -/
lemma forever_hunkPass {before : List HunkEntry} {flags tableSize : ℕ}
    (h : At data state.cursor ((before ++ [endRecord flags]).flatMap HunkEntry.encode))
    (hvalid : ∀ entry ∈ before, entry.memoryFlags < 4 ∧ entry.item.Valid ∧ entry.item.FewSymbols)
    (hflags : flags < 4)
    (hends : state.ended + (before.map fun entry => entry.item.ends).sum + 1 = tableSize)
    (hfew : state.records.length + before.length < maxHeaders) :
    forever .unending (hunkPass data tableSize) (data.length + 1) state =
      .ok ((before ++ [endRecord flags]).foldl HunkState.read state, none) := by
  have hlength := @length_le_flatMap _ HunkEntry.encode before fun entry _ =>
    length_encode_pos entry
  rw [List.flatMap_append] at h
  have hstop := h.left.stop_le
  obtain ⟨fuel, hfuel⟩ : ∃ fuel, data.length + 1 = before.length + (fuel + 1) :=
    ⟨data.length - before.length, by omega⟩
  obtain ⟨hloop, hat, hended, -⟩ := @forever_items _ _ .unending _ (hunkPass data tableSize) _
    HunkState.read
    (fun s rest => At data s.cursor (rest.flatMap HunkEntry.encode ++
        [endRecord flags].flatMap HunkEntry.encode) ∧
      s.ended + (rest.map fun entry => entry.item.ends).sum + 1 = tableSize ∧
      s.records.length + rest.length < maxHeaders ∧
      ∀ entry ∈ rest, entry.memoryFlags < 4 ∧ entry.item.Valid ∧ entry.item.FewSymbols)
    (by
      rintro s entry rest ⟨hat, hended, hrecords, hvalid⟩
      obtain ⟨⟨hflags, hitem, hsymbols⟩, hvalid⟩ := List.forall_mem_cons.1 hvalid
      rw [List.flatMap_cons, List.append_assoc] at hat
      rw [List.map_cons, List.sum_cons] at hended
      rw [List.length_cons] at hrecords
      have hnext : (s.read entry).ended = s.ended + entry.item.ends := rfl
      have hmore : (s.read entry).records.length = s.records.length + 1 := List.length_append
      refine ⟨?_, hat.right, by omega, by omega, hvalid⟩
      rw [hunkPass_of_entry hat.left hflags hitem hsymbols, if_neg (by omega), if_neg (by omega)])
    before state ⟨h, hends, hfew, hvalid⟩ (fuel + 1)
  rw [hfuel, hloop, List.foldl_append]
  rw [List.flatMap_nil, List.nil_append, List.flatMap_singleton] at hat
  have hlast : ((before.foldl HunkState.read state).read (endRecord flags)).ended = tableSize :=
    hended
  refine forever_of_done ?_ fuel
  rw [hunkPass_of_entry hat hflags trivial trivial, if_pos hlast]
  rfl

/-! ## Reading a file -/

section File

variable {file : HunkFile}

/-- Where the header table of a file begins. -/
def HunkFile.tableAt (file : HunkFile) : ℕ :=
  4 + (file.residentNames.flatMap encodeName ++ beBytes 0).length

/-- Where the records of a file begin. -/
def HunkFile.entriesAt (file : HunkFile) : ℕ :=
  file.tableAt + 12 + file.declaredHunks.length * 4

lemma length_flatMap_beBytes (words : List ℕ) :
    (words.flatMap beBytes).length = words.length * 4 := by
  simp [List.length_flatMap, List.map_const']

/-- The parts of a file. -/
lemma HunkFile.parts (file : HunkFile) : At file.encode 0 (beBytes 0x3F3) ∧
    At file.encode 4 (file.residentNames.flatMap encodeName ++ beBytes 0) ∧
    At file.encode file.tableAt
      ([file.declaredHunks.length, file.firstHunk, file.lastHunk].flatMap beBytes) ∧
    At file.encode (file.tableAt + 12) (file.sizeTable.flatMap beBytes) ∧
    At file.encode file.entriesAt (file.entries.flatMap HunkEntry.encode) ∧
    file.entriesAt + (file.entries.flatMap HunkEntry.encode).length = file.encode.length := by
  have hwhole := At.self file.encode
  have hrest : At file.encode 4 ((file.residentNames.flatMap encodeName ++ beBytes 0) ++
      ([file.declaredHunks.length, file.firstHunk, file.lastHunk].flatMap beBytes ++
        (file.sizeTable.flatMap beBytes ++ file.entries.flatMap HunkEntry.encode))) := by
    rw [List.append_assoc]
    exact hwhole.right
  have htable : At file.encode file.tableAt _ := hrest.right
  have hsizes : At file.encode (file.tableAt + 12) _ := htable.right
  have hlength : (file.sizeTable.flatMap beBytes).length = file.declaredHunks.length * 4 := by
    rw [length_flatMap_beBytes, sizeTable, List.length_map]
  have hentries : At file.encode file.entriesAt (file.entries.flatMap HunkEntry.encode) := by
    rw [entriesAt, ← hlength]
    exact hsizes.right
  refine ⟨hwhole.left, hrest.left, htable.left, hsizes.left, hentries, ?_⟩
  simp only [entriesAt, tableAt, encode, List.length_append, length_beBytes, hlength,
    length_flatMap_beBytes, List.length_cons, List.length_nil]
  omega

/-- A word of the size table. -/
def declaredOf (raw : ℕ) : DeclaredHunk :=
  { sizeLongs := raw % 2 ^ 30, memoryFlags := raw / 2 ^ 30 }

/-- The size table holds the declared hunks. -/
lemma declared_eq (h : file.Valid) :
    ((List.range file.declaredHunks.length).map fun i =>
      declaredOf (be32 file.encode (file.tableAt + 12 + i * 4))) = file.declaredHunks := by
  obtain ⟨-, -, -, hsizes, -⟩ := file.parts
  have hwords := hsizes.words_eq (fun word hword => by
    obtain ⟨hunk, hmem, rfl⟩ := List.mem_map.1 hword
    have hsize := h.sizes hunk hmem
    omega)
  rw [HunkFile.sizeTable, List.length_map] at hwords
  have hmap := congrArg (List.map declaredOf) hwords
  rw [List.map_map, List.map_map] at hmap
  refine hmap.trans ((List.map_congr_left fun hunk hmem => ?_).trans (List.map_id _))
  obtain ⟨hflags, hsize⟩ := h.sizes hunk hmem
  simp only [Function.comp_apply, declaredOf, id_eq]
  rw [show (hunk.memoryFlags * 2 ^ 30 + hunk.sizeLongs) % 2 ^ 30 = hunk.sizeLongs by omega,
    show (hunk.memoryFlags * 2 ^ 30 + hunk.sizeLongs) / 2 ^ 30 = hunk.memoryFlags by omega]

/-- The resident names are read up to the header table. -/
lemma forever_hunkResident (h : file.Valid) :
    forever .unending (hunkResident file.encode) (file.encode.length + 1) (4, []) =
      .ok (file.tableAt, file.residentNames) := by
  obtain ⟨-, hnames, -⟩ := file.parts
  have hpass : ∀ name ∈ file.residentNames, ∀ cursor (found : List PyStr),
      At file.encode cursor (encodeName name) → found.length < file.residentNames.length →
        hunkResident file.encode (cursor, found) =
          .ok (.again (cursor + (encodeName name).length, found ++ [name])) :=
    fun name hname _ found hat _ => hunkResident_of_name hat (h.names name hname) found
  have hpos : ∀ name ∈ file.residentNames, 0 < (encodeName name).length := fun name _ => by
    rw [length_encodeName]
    omega
  exact forever_zero hpass hpos (fun _ found hat => hunkResident_of_zero hat found) hnames
    (Nat.le_refl _)

/-- The header table. -/
lemma table_eq (h : file.Valid) : be32 file.encode file.tableAt = file.declaredHunks.length ∧
    be32 file.encode (file.tableAt + 4) = file.firstHunk ∧
    be32 file.encode (file.tableAt + 8) = file.lastHunk := by
  obtain ⟨-, -, htable, -⟩ := file.parts
  have hpos := h.table_pos
  have hle := h.table_le
  have hlast := h.last
  have hfirst : file.firstHunk < 2 ^ 32 := by
    unfold HunkFile.lastHunk at hlast
    omega
  exact ⟨htable.left.be32_eq (by omega), htable.right.left.be32_eq hfirst,
    htable.right.right.left.be32_eq hlast⟩

/-- Where the loop over the records begins. -/
def HunkFile.begin (file : HunkFile) : HunkState :=
  { cursor := file.entriesAt, records := [], currentHunk := file.firstHunk, ended := 0 }

/-- Where it ends. -/
def HunkFile.finish (file : HunkFile) : HunkState :=
  { cursor := file.encode.length
    records := file.records
    currentHunk := file.firstHunk + file.declaredHunks.length
    ended := file.declaredHunks.length }

/-- The records are read up to the end of the file. -/
lemma forever_entries (h : file.Valid) (hfew : ∀ entry ∈ file.entries, entry.item.FewSymbols) :
    forever .unending (hunkPass file.encode file.declaredHunks.length) (file.encode.length + 1)
      file.begin = .ok (file.finish, none) := by
  obtain ⟨-, -, -, -, hentries, hlength⟩ := file.parts
  obtain ⟨before, flags, hsplit, hends⟩ := h.ended
  change file.entries = before ++ [endRecord flags] at hsplit
  have hle := h.entries_le
  rw [hsplit, List.length_append, List.length_singleton] at hle
  have hgood : ∀ entry ∈ before,
      entry.memoryFlags < 4 ∧ entry.item.Valid ∧ entry.item.FewSymbols := fun entry hmem => by
    have hmem' : entry ∈ file.entries := hsplit ▸ List.mem_append_left _ hmem
    exact ⟨(h.entries entry hmem').1, (h.entries entry hmem').2, hfew entry hmem'⟩
  have hflags := (h.entries (endRecord flags) (by simp [hsplit])).1
  have hat : At file.encode file.begin.cursor
      ((before ++ [endRecord flags]).flatMap HunkEntry.encode) := hsplit ▸ hentries
  have hsum : (file.entries.map fun entry => entry.item.ends).sum = file.declaredHunks.length := by
    rw [hsplit, List.map_append, List.sum_append, ← hends]
    rfl
  have hfew' : file.begin.records.length + before.length < maxHeaders := by
    change 0 + before.length < 4096
    omega
  have hloop := @forever_hunkPass _ file.begin before flags file.declaredHunks.length hat hgood
    hflags (by rw [← hends]; simp [HunkFile.begin]) hfew'
  rw [hloop, ← hsplit, foldl_state]
  simp only [HunkFile.begin, hlength, hsum, List.nil_append, Nat.zero_add]
  rfl

/-- What is reported of a file. -/
def HunkFile.parsed (file : HunkFile) : ParsedExecutable :=
  { format := "AMIGA_HUNK"
    architecture := "M68K"
    observations := .hunk file.header file.records
    assessments := []
    errors := [] }

/-- Behind the header, all that is left is the loop over the records. -/
lemma parseHunk_eq_bind (h : file.Valid) : ∃ rest,
    parseHunk file.encode = forever .unending (hunkPass file.encode file.declaredHunks.length)
      (file.encode.length + 1) file.begin >>= rest ∧
    rest (file.finish, none) = .ok file.parsed := by
  obtain ⟨-, -, htable, hsizes, -⟩ := file.parts
  obtain ⟨hcount, hfirst, hlast⟩ := table_eq h
  have hpos := h.table_pos
  have hle := h.table_le
  have hstop := htable.stop_le
  have hsizesStop := hsizes.stop_le
  have hrange : file.lastHunk - file.firstHunk + 1 = file.declaredHunks.length := by
    unfold HunkFile.lastHunk
    omega
  have hordered : ¬file.lastHunk < file.firstHunk := by
    unfold HunkFile.lastHunk
    omega
  rw [length_flatMap_beBytes] at hstop hsizesStop
  rw [HunkFile.sizeTable, List.length_map] at hsizesStop
  unfold parseHunk
  rw [forever_hunkResident h]
  change ∃ rest, (need file.encode file.tableAt 12 "HUNK header table" >>= _) = _ ∧ _
  rw [need_bind (by simpa using hstop), unpackFrom_of_fits _ (by simpa using hstop), hcount, hfirst,
    hlast]
  dsimp only [bind, Except.bind]
  rw [if_neg (by unfold maxSections; omega), need_eq_ok.2 hsizesStop]
  refine ⟨_, rfl, ?_⟩
  change (if file.declaredHunks.length ≠ file.declaredHunks.length then _ else _) = _
  rw [if_neg (not_not.2 rfl)]
  exact congrArg (fun declared => Except.ok (⟨"AMIGA_HUNK", some "M68K",
    .hunk ⟨file.residentNames, file.declaredHunks.length, file.firstHunk, file.lastHunk, declared⟩
      file.records, [], []⟩ : ParsedExecutable)) (declared_eq h)

/-- What is returned for a file. -/
lemma parseHunk_encode (h : file.Valid) (hfew : ∀ entry ∈ file.entries, entry.item.FewSymbols) :
    parseHunk file.encode = .ok file.parsed := by
  obtain ⟨rest, hparse, hrest⟩ := parseHunk_eq_bind h
  rw [hparse, forever_entries h hfew]
  exact hrest

end File

/-! ## Reading the beginning of a file -/

section Beginning

variable (rest : Bytes)

lemma extends_need_bind {α : Type} {offset size : ℕ} {what : String} {x y : Except Exc α}
    (h : offset + size ≤ data.length → Extends x y) :
    Extends (do need data offset size what; x) (do need (data ++ rest) offset size what; y) := by
  refine .bind (fun _ hneed => need_eq_ok.2 ?_) fun _ hneed => h (need_eq_ok.1 hneed)
  have hfits := need_eq_ok.1 hneed
  rw [List.length_append]
  omega

lemma hunkResident_extends (state : ℕ × List PyStr) :
    Extends (hunkResident data state) (hunkResident (data ++ rest) state) := by
  unfold hunkResident
  refine extends_need_bind rest fun hfits => ?_
  rw [be32_append hfits]
  refine .ite (fun _ => .refl _) fun _ => .ite (fun _ => .error _ _) fun _ => ?_
  refine extends_need_bind rest fun hname => ?_
  rw [slice_append_left hname]
  exact .refl _

lemma hunkSymbol_extends (state : ℕ × List HunkSymbol) :
    Extends (hunkSymbol data state) (hunkSymbol (data ++ rest) state) := by
  unfold hunkSymbol
  refine extends_need_bind rest fun hfits => ?_
  rw [be32_append hfits]
  refine .ite (fun _ => .refl _) fun _ => .ite (fun _ => .error _ _) fun _ => ?_
  refine extends_need_bind rest fun hsymbol => ?_
  rw [slice_append_left (by omega), be32_append (by omega)]
  exact .refl _

lemma hunkGroup_extends (name : String) (state : ℕ × List Relocations) :
    Extends (hunkGroup data name state) (hunkGroup (data ++ rest) name state) := by
  unfold hunkGroup
  refine extends_need_bind rest fun hfits => ?_
  rw [be32_append hfits]
  refine .ite (fun _ => .refl _) fun _ => .ite (fun _ => .error _ _) fun _ => ?_
  refine extends_need_bind rest fun hgroup => ?_
  have hoffsets : ((List.range (be32 data state.1)).map fun i =>
      be32 (data ++ rest) (state.1 + 8 + i * 4)) =
        (List.range (be32 data state.1)).map fun i => be32 data (state.1 + 8 + i * 4) := by
    refine List.map_congr_left fun i hi => be32_append ?_ rest
    have hlt := List.mem_range.1 hi
    omega
  rw [be32_append (by omega), hoffsets, unpackFrom_of_fits _ (by omega),
    unpackFrom_of_fits _ (by rw [List.length_append]; omega)]
  exact .refl _

lemma hunkBody_extends (name : String) (hunkType cursor : ℕ) :
    Extends (hunkBody data name hunkType cursor)
      (hunkBody (data ++ rest) name hunkType cursor) := by
  have hfuel : data.length + 1 ≤ (data ++ rest).length + 1 := by
    rw [List.length_append]
    omega
  unfold hunkBody
  refine .ite (fun _ => ?_) fun _ => .ite (fun _ => ?_) fun _ => .ite (fun _ => ?_) fun _ => .refl _
  · refine extends_need_bind rest fun hfits => ?_
    rw [be32_append hfits]
    exact .ite (fun _ => extends_need_bind rest fun _ => .refl _) fun _ => .refl _
  · exact .bind (forever_extends (hunkGroup_extends rest name) hfuel _) fun _ _ => .refl _
  · exact .bind (forever_extends (hunkSymbol_extends rest) hfuel _) fun _ _ => .refl _

lemma hunkPass_extends {tableSize : ℕ} {state : HunkState} (hmore : state.cursor < data.length) :
    Extends (hunkPass data tableSize state) (hunkPass (data ++ rest) tableSize state) := by
  unfold hunkPass
  rw [if_neg (by omega), if_neg (by rw [List.length_append]; omega)]
  refine extends_need_bind rest fun hfits => ?_
  rw [be32_append hfits]
  exact .bind (hunkBody_extends rest _ _ _) fun _ _ => .refl _

/-- A list ends in the file. -/
lemma yields_within {α : Type} {body : ℕ × α → Except Exc (Next (ℕ × α) (ℕ × α))}
    (hbody : ∀ s, Yields (fun next => ∀ result, next = .done result → result.1 ≤ data.length)
      (body s)) (fuel : ℕ) (state : ℕ × α) :
    Yields (fun result => result.1 ≤ data.length) (forever .unending body fuel state) :=
  fun _ h => forever_ok (I := fun _ => True) (Q := fun result => result.1 ≤ data.length)
    (fun _ _ => trivial) (fun _ hdone => hbody _ _ hdone _ rfl) trivial h

lemma hunkGroup_within (name : String) (state : ℕ × List Relocations) :
    Yields (fun next => ∀ result, next = .done result → result.1 ≤ data.length)
      (hunkGroup data name state) := by
  unfold hunkGroup
  refine yields_need_bind fun hfits => .ite (fun _ => .ok ?_) fun _ => .ite (fun _ => .error _) ?_
  · rintro _ ⟨⟩
    exact hfits
  · refine fun _ => yields_need_bind fun _ => .bind fun _ _ => .ok ?_
    rintro _ ⟨⟩

lemma hunkSymbol_within (state : ℕ × List HunkSymbol) :
    Yields (fun next => ∀ result, next = .done result → result.1 ≤ data.length)
      (hunkSymbol data state) := by
  unfold hunkSymbol
  refine yields_need_bind fun hfits => .ite (fun _ => .ok ?_) fun _ => .ite (fun _ => .error _) ?_
  · rintro _ ⟨⟩
    exact hfits
  · refine fun _ => yields_need_bind fun _ => .ok ?_
    rintro _ ⟨⟩

lemma hunkBody_within (name : String) (hunkType : ℕ) (hcursor : cursor ≤ data.length) :
    Yields (fun result => result.2 ≤ data.length) (hunkBody data name hunkType cursor) := by
  unfold hunkBody
  refine .ite (fun _ => yields_need_bind fun hfits => ?_) fun _ => .ite (fun _ => ?_) fun _ =>
    .ite (fun _ => ?_) fun _ => .ite (fun _ => .ok hcursor) fun _ => .ok hcursor
  · exact .ite (fun _ => yields_need_bind fun hcontent => .ok hcontent) fun _ => .ok hfits
  · exact .bind fun result hresult => .ok (yields_within (hunkGroup_within name) _ _ result hresult)
  · exact .bind fun result hresult => .ok (yields_within hunkSymbol_within _ _ result hresult)

/-- What a pass that meets a record comes to. -/
lemma hunkPass_next {tableSize : ℕ} {state : HunkState} (hmore : state.cursor < data.length) :
    Yields (fun next => (∀ state', next = .again state' → state'.ended ≠ tableSize) ∧
      ∀ result, next = .done result → result.1.cursor ≤ data.length)
      (hunkPass data tableSize state) := by
  unfold hunkPass
  rw [if_neg (by omega)]
  refine yields_need_bind fun hfits => .bind fun result hresult => ?_
  have hwithin := hunkBody_within _ _ hfits result hresult
  refine .ite (fun _ => .ok ⟨by rintro _ ⟨⟩, ?_⟩) fun _ => .ite (fun _ => .ok ⟨by rintro _ ⟨⟩, ?_⟩)
    fun hended => .ite (fun _ => .error _) fun _ => .ok ⟨?_, by rintro _ ⟨⟩⟩
  · rintro _ ⟨⟩
    exact hwithin
  · rintro _ ⟨⟩
    exact hwithin
  · rintro _ ⟨⟩
    exact hended

/-- A loop over the records that ends in the beginning of a file has run out of it before the last
end, or ends alike in all of it. -/
lemma forever_hunkPass_append {tableSize fuel fuel' : ℕ} {state : HunkState}
    {result : HunkState × Option ℕ}
    (h : forever .unending (hunkPass data tableSize) fuel state = .ok result)
    (hended : state.ended ≠ tableSize) (hfuel : fuel ≤ fuel') :
    result.2 = none ∧ result.1.ended ≠ tableSize ∨
      forever .unending (hunkPass (data ++ rest) tableSize) fuel' state = .ok result ∧
        result.1.cursor ≤ data.length := by
  induction fuel generalizing state fuel' with
  | zero => cases h
  | succ fuel ih =>
      obtain ⟨fuel', rfl⟩ : ∃ more, fuel' = more + 1 :=
        Nat.exists_eq_succ_of_ne_zero (by omega)
      obtain ⟨next, hnext, hrest⟩ := bind_eq_ok.1 h
      by_cases hmore : state.cursor < data.length
      · have hall := hunkPass_extends rest hmore next hnext
        obtain ⟨hagain, hdone⟩ := hunkPass_next hmore next hnext
        cases next with
        | again state' =>
            rw [forever_of_again hall]
            exact ih hrest (hagain state' rfl) (by omega)
        | done value =>
            obtain rfl := Except.ok.inj hrest
            exact .inr ⟨forever_of_done hall _, hdone value rfl⟩
      · rw [hunkPass, if_pos (by omega)] at hnext
        obtain rfl := Except.ok.inj hnext
        obtain rfl := Except.ok.inj hrest
        exact .inl ⟨rfl, hended⟩

/-- The beginning of a file is not accepted. -/
lemma parseHunk_ne_ok {file : HunkFile} (h : file.Valid)
    (hfew : ∀ entry ∈ file.entries, entry.item.FewSymbols) (hsplit : file.encode = data ++ rest)
    (hrest : rest ≠ []) (parsed : ParsedExecutable) : parseHunk data ≠ .ok parsed := by
  intro hok
  have hfuel : data.length + 1 ≤ file.encode.length + 1 := by
    rw [hsplit, List.length_append]
    omega
  unfold parseHunk at hok
  obtain ⟨⟨cursor, resident⟩, hresident, hok⟩ := bind_eq_ok.1 hok
  have hresident' := forever_extends (hunkResident_extends rest) hfuel _ _ hresident
  rw [← hsplit, forever_hunkResident h] at hresident'
  obtain ⟨rfl, rfl⟩ := Prod.mk.inj (Except.ok.inj hresident')
  obtain ⟨_, hheader, hok⟩ := bind_eq_ok.1 hok
  have hfits := need_eq_ok.1 hheader
  obtain ⟨hcount, hfirst, -⟩ := table_eq h
  rw [hsplit, be32_append (by omega)] at hcount hfirst
  obtain ⟨words, hwords, hok⟩ := bind_eq_ok.1 hok
  obtain ⟨-, rfl⟩ := unpackFrom_eq_ok.1 hwords
  dsimp only at hok
  rw [hcount, hfirst] at hok
  split at hok
  · cases hok
  obtain ⟨_, -, hok⟩ := bind_eq_ok.1 hok
  obtain ⟨⟨final, unsupported⟩, hloop, hok⟩ := bind_eq_ok.1 hok
  have hpos := h.table_pos
  rcases forever_hunkPass_append rest hloop (show 0 ≠ _ by omega) hfuel with
    ⟨hnone, hshort⟩ | ⟨hall, hwithin⟩
  · obtain rfl : unsupported = none := hnone
    dsimp only at hok
    rw [if_pos hshort] at hok
    cases hok
  · have hfinish := forever_entries h hfew
    rw [← hsplit] at hall
    obtain ⟨rfl, -⟩ := Prod.mk.inj (Except.ok.inj (hall.symm.trans hfinish))
    have hlonger := List.length_pos_iff.2 hrest
    have hwhole : file.encode.length ≤ data.length := hwithin
    rw [hsplit, List.length_append] at hwhole
    omega

end Beginning

/-! ## Files and their beginnings -/

lemma parseExecutable_of_hunk (hmagic : slice data 0 4 = beBytes 0x3F3) :
    parseExecutable data = some <$> parseHunk data := by
  have hlength := congrArg List.length hmagic
  rw [length_slice, length_beBytes] at hlength
  have hword : be32 data 0 = 0x3F3 := by
    rw [be32, hmagic, beNat_beBytes, Nat.mod_eq_of_lt (by decide)]
  unfold parseExecutable
  rw [if_neg (by rw [hmagic]; decide), if_pos ⟨by omega, hword⟩]

lemma slice_encode (file : HunkFile) : slice file.encode 0 4 = beBytes 0x3F3 :=
  file.parts.1.slice_eq

/-- The reader returns what a file was written from, and accepts no proper beginning of it that is
long enough to be taken for one. -/
theorem hunk_reads_back {file : HunkFile} (h : file.Valid)
    (hfew : ∀ entry ∈ file.entries, entry.item.FewSymbols) :
    (∃ parsed, parseExecutable file.encode = .ok (some parsed) ∧ parsed.format = "AMIGA_HUNK" ∧
      parsed.errors = [] ∧ parsed.observations = .hunk file.header file.records) ∧
    ∀ start : Bytes, start <+: file.encode → start ≠ file.encode → 4 ≤ start.length →
      ∃ exc, parseExecutable start = .error exc ∧ IsExecutable exc := by
  constructor
  · refine ⟨file.parsed, ?_, rfl, rfl, rfl⟩
    rw [parseExecutable_of_hunk (slice_encode file), parseHunk_encode h hfew]
    rfl
  · rintro start ⟨rest, hsplit⟩ hproper hlong
    have hmagic : slice start 0 4 = beBytes 0x3F3 := by
      rw [← slice_append_left hlong rest, hsplit, slice_encode]
    have hrest : rest ≠ [] := by
      rintro rfl
      exact hproper (by rw [← hsplit, List.append_nil])
    rw [parseExecutable_of_hunk hmagic]
    cases hparse : parseHunk start with
    | ok parsed => exact (parseHunk_ne_ok rest h hfew hsplit.symm hrest parsed hparse).elim
    | error exc => exact ⟨exc, rfl, raises_parseHunk start exc hparse⟩

/-! ### A file with too many symbols -/

lemma hunkSymbol_of_full {symbol : HunkSymbol} (h : At data cursor (encodeSymbol symbol))
    (hname : IsName symbol.name) {symbols : List HunkSymbol} (hfull : maxSymbols ≤ symbols.length) :
    hunkSymbol data (cursor, symbols) = .error (.executable "HUNK symbol limit exceeded") := by
  obtain ⟨hlongs, -⟩ := at_name h.left hname
  have hstop := h.left.stop_le
  have hpos := longsOf_pos hname
  rw [length_encodeName] at hstop
  unfold hunkSymbol
  dsimp only
  rw [need_bind (by omega), hlongs, if_neg (by omega), if_pos (.inl hfull)]
  rfl

/-- A record with too many symbols is refused. -/
lemma hunkBody_of_crowd {symbols : List HunkSymbol}
    (h : At data cursor (symbols.flatMap encodeSymbol))
    (hsymbols : ∀ symbol ∈ symbols, IsName symbol.name ∧ symbol.value < 2 ^ 32)
    (hcrowd : maxSymbols < symbols.length) (name : String) :
    hunkBody data name 0x3F0 cursor = .error (.executable "HUNK symbol limit exceeded") := by
  have hsplit : symbols = symbols.take maxSymbols ++
      symbols[maxSymbols] :: symbols.drop (maxSymbols + 1) := by
    rw [← List.drop_eq_getElem_cons hcrowd, List.take_append_drop]
  have hfull : (symbols.take maxSymbols).length = maxSymbols := by
    rw [List.length_take]
    omega
  rw [hsplit, List.flatMap_append, List.flatMap_cons, ← List.append_assoc] at h
  have hlength := @length_le_flatMap _ encodeSymbol (symbols.take maxSymbols)
    fun symbol _ => length_encodeSymbol_pos symbol
  have hstop := h.left.left.stop_le
  obtain ⟨fuel, hfuel⟩ : ∃ fuel, data.length + 1 = (symbols.take maxSymbols).length + (fuel + 1) :=
    ⟨data.length - (symbols.take maxSymbols).length, by omega⟩
  have hpass := @hunkSymbol_pass data (symbols.take maxSymbols) fun symbol hmem =>
    hsymbols symbol (List.mem_of_mem_take hmem)
  have hnext := hunkSymbol_of_full h.left.right (hsymbols _ (List.getElem_mem hcrowd)).1 hfull.ge
  have hloop := forever_read hpass h.left hfull.le (fuel + 1)
  rw [forever_of_error hnext, ← hfuel] at hloop
  unfold hunkBody
  rw [if_neg (by decide), if_neg (by decide), if_pos rfl, hloop]
  rfl

lemma hunkPass_of_crowd {symbols : List HunkSymbol} {state : HunkState}
    (h : At data state.cursor (beBytes 0x3F0 ++ symbols.flatMap encodeSymbol))
    (hsymbols : ∀ symbol ∈ symbols, IsName symbol.name ∧ symbol.value < 2 ^ 32)
    (hcrowd : maxSymbols < symbols.length) (tableSize : ℕ) :
    hunkPass data tableSize state = .error (.executable "HUNK symbol limit exceeded") := by
  have hstop := h.left.stop_le
  have hbody := hunkBody_of_crowd h.right hsymbols hcrowd
  rw [length_beBytes] at hstop hbody
  unfold hunkPass
  rw [if_neg (by omega), need_bind hstop, h.left.be32_eq (by decide)]
  dsimp only
  rw [show 0x3F0 % 2 ^ 30 = 0x3F0 from rfl, hbody]
  rfl

/-- The file with one hunk, which has these symbols. -/
def symbolFile (symbols : List HunkSymbol) : HunkFile :=
  { residentNames := []
    firstHunk := 0
    declaredHunks := [⟨0, 0⟩]
    entries := [⟨0, .symbols symbols⟩, endRecord 0] }

lemma symbolFile_valid {symbols : List HunkSymbol}
    (h : ∀ symbol ∈ symbols, IsName symbol.name ∧ symbol.value < 2 ^ 32) :
    (symbolFile symbols).Valid where
  names := by simp [symbolFile]
  table_pos := Nat.le_refl 1
  table_le := Nat.le_add_left 1 1023
  last := by simp [symbolFile, HunkFile.lastHunk]
  sizes := by simp [symbolFile]
  entries_le := Nat.le_add_left 2 4094
  entries := by
    intro entry hentry
    rcases List.mem_cons.1 hentry with rfl | hentry
    · exact ⟨show 0 < 4 by decide, h⟩
    · obtain rfl := List.mem_singleton.1 hentry
      exact ⟨show 0 < 4 by decide, trivial⟩
  ended := ⟨[⟨0, .symbols symbols⟩], 0, rfl, rfl⟩

/-- Symbols that are named `a`. -/
def symbolsA (count : ℕ) : List HunkSymbol := List.replicate count ⟨latin1 (ascii "a"), 0⟩

lemma symbolsA_valid (count : ℕ) :
    ∀ symbol ∈ symbolsA count, IsName symbol.name ∧ symbol.value < 2 ^ 32 := by
  intro symbol hmem
  obtain rfl := List.eq_of_mem_replicate hmem
  exact ⟨⟨by decide, by decide, latin1_lt _, by decide⟩, by decide⟩

/-- A file with one symbol. -/
def oneSymbol : HunkFile := symbolFile (symbolsA 1)

theorem oneSymbol_reads_back :
    (∃ parsed, parseExecutable oneSymbol.encode = .ok (some parsed) ∧
      parsed.format = "AMIGA_HUNK" ∧ parsed.errors = [] ∧
        parsed.observations = .hunk oneSymbol.header oneSymbol.records) ∧
    ∀ start : Bytes, start <+: oneSymbol.encode → start ≠ oneSymbol.encode → 4 ≤ start.length →
      ∃ exc, parseExecutable start = .error exc ∧ IsExecutable exc := by
  refine hunk_reads_back (symbolFile_valid (symbolsA_valid 1)) fun entry hentry => ?_
  rcases List.mem_cons.1 hentry with rfl | hentry
  · exact Nat.le_add_left 1 99999
  · obtain rfl := List.mem_singleton.1 hentry
    trivial

/-- A file with one symbol more than a record may have is refused. -/
theorem crowded_symbols_refused : (symbolFile (symbolsA 100001)).Valid ∧
    parseExecutable (symbolFile (symbolsA 100001)).encode =
      .error (.executable "HUNK symbol limit exceeded") := by
  have hvalid := symbolFile_valid (symbolsA_valid 100001)
  have hcrowd : maxSymbols < (symbolsA 100001).length := by
    rw [symbolsA, List.length_replicate]
    decide
  have hsymbols := symbolsA_valid 100001
  generalize symbolsA 100001 = symbols at *
  have hentry : HunkEntry.encode ⟨0, .symbols symbols⟩ =
      (beBytes 0x3F0 ++ symbols.flatMap encodeSymbol) ++ beBytes 0 := by
    simp only [HunkEntry.encode, HunkItem.encode, HunkItem.typeId, Nat.zero_mul, Nat.zero_add,
      List.append_assoc]
  obtain ⟨-, -, -, -, hentries, -⟩ := (symbolFile symbols).parts
  have hfirst := hentries.left
  rw [hentry] at hfirst
  obtain ⟨rest, hparse, -⟩ := parseHunk_eq_bind hvalid
  rw [forever_of_error (hunkPass_of_crowd hfirst.left hsymbols hcrowd _)] at hparse
  refine ⟨hvalid, ?_⟩
  rw [parseExecutable_of_hunk (slice_encode _), hparse]
  rfl

end Executable

end AVBox
