import AVBox.Analyzers.Cfb
import AVBox.Lib.Fallible
import AVBox.Lib.Linked
import Mathlib.Data.List.TakeWhile

/-!
# Compound files as MS-CFB lays them out

A compound file holds a tree of storages and streams (`Objects`).  `LaidOut` says, field by field,
what the format prescribes for the file of such a tree: the header, the allocation table, the
directory, the mini stream, and the sectors, which are counted in whole sectors after the header in
both versions of the format.  `_parse_cfb` counts them from byte 512 on, which is the same thing in
version 3 only.
-/

namespace AVBox

namespace Cfb

open Binary Fallible

/-! ## Storages and streams -/

/-- The objects of a storage, arranged as its directory entries are: each has two siblings, and a
storage has objects of its own.  `id` is the slot of an object in the directory. -/
inductive Objects
  | none
  | stream (id : ℕ) (name : PyStr) (content : Bytes) (left right : Objects)
  | storage (id : ℕ) (name : PyStr) (children left right : Objects)

/-- An object with its place in the tree; only a stream has a content. -/
structure Located where
  id : ℕ
  path : PyStr
  content : Option Bytes
  deriving DecidableEq

namespace Objects

/-- The slot of the first object, or NOSTREAM. -/
def first : Objects → ℕ
  | none => 0xFFFFFFFF
  | stream id _ _ _ _ => id
  | storage id _ _ _ _ => id

/-- The slots of all objects. -/
def ids : Objects → List ℕ
  | none => []
  | stream id _ _ left right => left.ids ++ id :: right.ids
  | storage id _ children left right => left.ids ++ id :: (children.ids ++ right.ids)

/-- The names of the storages around an object and its own name, joined. -/
def joined (names : List PyStr) : PyStr := List.intercalate [0x2F] names

/-- The objects of a tree that stands in nested storages of these names. -/
def located (position : List PyStr) : Objects → List Located
  | none => []
  | stream id name content left right =>
      left.located position ++
        ⟨id, joined (position ++ [name]), some content⟩ :: right.located position
  | storage id name children left right =>
      left.located position ++ ⟨id, joined (position ++ [name]), Option.none⟩ ::
        (children.located (position ++ [name]) ++ right.located position)

/-- The nested calls that visiting a tree takes. -/
def height : Objects → ℕ
  | none => 1
  | stream _ _ _ left right => max left.height right.height + 1
  | storage _ _ children left right => max left.height (max children.height right.height) + 1

end Objects

/-! ## Names -/

/-- Two bytes, the low one first. -/
def twoBytes (unit : ℕ) : Bytes := [UInt8.ofNat unit, UInt8.ofNat (unit / 256)]

/-- `text.encode("utf-16le")`. -/
def encodeUtf16 (text : PyStr) : Bytes :=
  text.flatMap fun c =>
    if c.val < 0x10000 then twoBytes c.val
    else twoBytes (0xD800 + (c.val - 0x10000) / 0x400) ++
      twoBytes (0xDC00 + (c.val - 0x10000) % 0x400)

/-- The name of an object: at most 31 UTF-16 code units. -/
structure LegalName (name : PyStr) : Prop where
  nonempty : name ≠ []
  wellFormed : PyStr.wellFormed name = true
  short : (encodeUtf16 name).length ≤ 62

lemma unit_of_twoBytes {unit : ℕ} (h : unit < 0x10000) :
    (UInt8.ofNat unit).toNat + 256 * (UInt8.ofNat (unit / 256)).toNat = unit := by
  simp only [UInt8.toNat_ofNat']
  omega

/-- A code unit that is no surrogate. -/
lemma decodeUtf16_unit {unit : ℕ} (h : unit < 0x10000) (hscalar : unit < 0xD800 ∨ 0xDFFF < unit)
    (rest : Bytes) :
    decodeUtf16 (twoBytes unit ++ rest) = Fin.ofNat 0x110000 unit :: decodeUtf16 rest := by
  simp only [twoBytes, List.cons_append, List.nil_append]
  rw [decodeUtf16.eq_def]
  simp only [unit_of_twoBytes h]
  rw [if_pos hscalar]

/-- A surrogate pair. -/
lemma decodeUtf16_pair {high low : ℕ} (hhigh : high < 0x400) (hlow : low < 0x400) (rest : Bytes) :
    decodeUtf16 (twoBytes (0xD800 + high) ++ twoBytes (0xDC00 + low) ++ rest) =
      Fin.ofNat 0x110000 (0x10000 + high * 0x400 + low) :: decodeUtf16 rest := by
  have hfirst : 0xD800 + high < 0x10000 := by omega
  have hsecond : 0xDC00 + low < 0x10000 := by omega
  simp only [twoBytes, List.cons_append, List.nil_append]
  rw [decodeUtf16]
  simp only [unit_of_twoBytes hfirst, unit_of_twoBytes hsecond]
  rw [if_neg (by omega), if_neg (by omega), if_pos (by omega), Nat.add_sub_cancel_left,
    Nat.add_sub_cancel_left]

lemma ofNat_codePoint (c : Fin 0x110000) : Fin.ofNat 0x110000 c.val = c :=
  Fin.ext (Nat.mod_eq_of_lt c.isLt)

/-- A name without lone surrogates is read as it was written. -/
lemma decodeUtf16_encodeUtf16 {text : PyStr} (h : PyStr.wellFormed text = true) :
    decodeUtf16 (encodeUtf16 text) = text := by
  induction text with
  | nil => rfl
  | cons c text ih =>
      obtain ⟨hscalar, hrest⟩ : PyStr.isSurrogate c = false ∧ PyStr.wellFormed text = true := by
        simpa [PyStr.wellFormed] using h
      have hscalar : ¬(0xD800 ≤ c.val ∧ c.val ≤ 0xDFFF) := by
        simpa [PyStr.isSurrogate] using hscalar
      have hlimit := c.isLt
      rw [encodeUtf16, List.flatMap_cons, ← encodeUtf16]
      by_cases hsmall : c.val < 0x10000
      · rw [if_pos hsmall, decodeUtf16_unit hsmall (by omega), ih hrest, ofNat_codePoint]
      · have hpair : 0x10000 + (c.val - 0x10000) / 0x400 * 0x400 + (c.val - 0x10000) % 0x400 =
            c.val := by omega
        rw [if_neg hsmall, decodeUtf16_pair (by omega) (by omega), ih hrest, hpair,
          ofNat_codePoint]

/-! ## Sectors -/

/-- A compound file and what its parts are. -/
structure Image where
  major : ℕ
  data : Bytes
  fatSids : List ℕ
  fat : List ℕ
  directorySids : List ℕ
  minifatSids : List ℕ
  minifat : List ℕ
  rootName : PyStr
  rootStart : ℕ
  ministream : Bytes
  objects : Objects

/-- The end of a chain, and the mark of a sector that is not used. -/
def endOfChain : ℕ := 0xFFFFFFFE

def freeSector : ℕ := 0xFFFFFFFF

/-- A place of an allocation table leads to another one. -/
def Leads (table : List ℕ) (sid next : ℕ) : Prop := sid < mark ∧ table[sid]? = some next

/-- The chain of sectors from the first one on. -/
abbrev Chained (table : List ℕ) : ℕ → List ℕ → Prop :=
  Linked (fun sid => sid = endOfChain) (Leads table)

namespace Image

variable (image : Image)

def sectorSize : ℕ := if image.major = 3 then 512 else 4096

def sectorShift : ℕ := if image.major = 3 then 9 else 12

/-- The number of sectors behind the header, which takes one sector itself. -/
def sectorCount : ℕ := image.data.length / image.sectorSize - 1

/-- A sector. -/
def sectorAt (sid : ℕ) : Bytes :=
  slice image.data ((sid + 1) * image.sectorSize) ((sid + 1) * image.sectorSize + image.sectorSize)

/-- The sectors of a list, joined. -/
def contents (sids : List ℕ) : Bytes := (sids.map image.sectorAt).flatten

/-- A chain of sectors of the file. -/
def HasChain (start : ℕ) (sids : List ℕ) : Prop :=
  Chained image.fat start sids ∧ ∀ sid ∈ sids, sid < image.sectorCount

/-- The number of pieces that a content takes. -/
def pieces (size : ℕ) (content : Bytes) : ℕ := (content.length + size - 1) / size

/-- A content in sectors of its own. -/
def InSectors (start : ℕ) (content : Bytes) : Prop :=
  ∃ sids, image.HasChain start sids ∧ sids.length = pieces image.sectorSize content ∧
    (image.contents sids).take content.length = content

/-- A piece of the mini stream. -/
def miniSectorAt (sid : ℕ) : Bytes := slice image.ministream (sid * 64) ((sid + 1) * 64)

/-- A content in the mini stream. -/
def InMiniSectors (start : ℕ) (content : Bytes) : Prop :=
  ∃ sids, Chained image.minifat start sids ∧ sids.length = pieces 64 content ∧
    ((sids.map image.miniSectorAt).flatten).take content.length = content

/-- The content of a stream: below the cutoff it is in the mini stream. -/
def Stored (start : ℕ) (content : Bytes) : Prop :=
  content ≠ [] → if content.length < 0x1000 then image.InMiniSectors start content
    else image.InSectors start content

/-! ## Directory -/

def directory : Bytes := image.contents image.directorySids

/-- A slot of the directory. -/
def slotAt (id : ℕ) : Bytes := slice image.directory (id * 128) (id * 128 + 128)

/-- The fields of a directory entry. -/
structure Slot (raw : Bytes) (name : PyStr) (kind left right child start size : ℕ) : Prop where
  nameLength : le16 raw 64 = (encodeUtf16 name).length + 2
  name : raw.take (encodeUtf16 name).length = encodeUtf16 name
  kind : u8 raw 66 = kind
  left : le32 raw 68 = left
  right : le32 raw 72 = right
  child : le32 raw 76 = child
  start : le32 raw 116 = start
  size : le64 raw 120 = size

/-- Every object is in its slot, and every stream has its content. -/
def Holds : Objects → Prop
  | .none => True
  | .stream id name content left right =>
      LegalName name ∧ (∃ start,
        Slot (image.slotAt id) name 2 left.first right.first 0xFFFFFFFF start content.length ∧
          image.Stored start content) ∧ Holds left ∧ Holds right
  | .storage id name children left right =>
      LegalName name ∧ (∃ start size,
        Slot (image.slotAt id) name 1 left.first right.first children.first start size) ∧
          Holds children ∧ Holds left ∧ Holds right

end Image

/-- The file is laid out as MS-CFB prescribes. -/
structure LaidOut (image : Image) : Prop where
  version : image.major = 3 ∨ image.major = 4
  wholeSectors : image.sectorSize ∣ image.data.length
  header : image.sectorSize ≤ image.data.length
  majorField : le16 image.data 26 = image.major
  shiftField : le16 image.data 30 = image.sectorShift
  miniShiftField : le16 image.data 32 = 6
  fatCount : image.fatSids.length ≤ 109
  fatCountField : le32 image.data 44 = image.fatSids.length
  cutoffField : le32 image.data 56 = 0x1000
  difat : ∀ i < 109, le32 image.data (76 + 4 * i) = image.fatSids.getD i freeSector
  fatInside : ∀ sid ∈ image.fatSids, sid < mark ∧ sid < image.sectorCount
  fat : table (image.contents image.fatSids) = image.fat
  directory : image.HasChain (le32 image.data 48) image.directorySids
  minifatChain : image.HasChain (le32 image.data 60) image.minifatSids
  minifatCount : le32 image.data 64 = image.minifatSids.length
  minifat : table (image.contents image.minifatSids) = image.minifat
  rootName : LegalName image.rootName
  root : Image.Slot (image.slotAt 0) image.rootName 5 0xFFFFFFFF 0xFFFFFFFF image.objects.first
    image.rootStart image.ministream.length
  ministream : image.ministream ≠ [] → image.InSectors image.rootStart image.ministream
  objects : image.Holds image.objects
  distinct : image.objects.ids.Nodup
  regular : ∀ id ∈ image.objects.ids, id < mark
  rootApart : 0 ∉ image.objects.ids
  unused : ∀ id, id ≠ 0 → id ∉ image.objects.ids → u8 (image.slotAt id) 66 = 0

/-- The file reads back: every stream entry has the content and the path of a stream of the tree,
and every stream has such an entry. -/
def RoundTrip (limits : DocumentLimits) (frames : ℕ) (image : Image) : Prop :=
  ∃ entries, parse limits frames image.data = .ok entries ∧
    (∀ entry ∈ entries, entry.kind = 2 →
      ⟨entry.entryId, entry.path, some entry.data⟩ ∈ image.objects.located []) ∧
    ∀ item ∈ image.objects.located [], item.content.isSome →
      ∃ entry ∈ entries, entry.kind = 2 ∧ item = ⟨entry.entryId, entry.path, some entry.data⟩

/-- No stream is larger than the limits allow. -/
def StreamsWithin (limits : DocumentLimits) (image : Image) : Prop :=
  ∀ item ∈ image.objects.located [], ∀ content ∈ item.content,
    content.length ≤ limits.maxDocumentParserBytes ∧
      Image.pieces (if content.length < 0x1000 then 64 else image.sectorSize) content ≤
        limits.maxDocumentComponents

/-- The directory, the mini stream and the tree are not larger than the parser allows either. -/
structure Fits (limits : DocumentLimits) (frames : ℕ) (image : Image) : Prop where
  directory : image.directorySids.length ≤ limits.maxDocumentComponents
  entries : image.objects.ids.length + 1 ≤ limits.maxDocumentComponents
  ministream : Image.pieces image.sectorSize image.ministream ≤ limits.maxDocumentComponents
  tree : image.objects.height ≤ frames

/-! ## The header and the sectors -/

namespace LaidOut

variable {image : Image}

/-- The header as the parser reads it. -/
def headerOf (image : Image) : Header where
  sectorSize := image.sectorSize
  totalSectors := image.sectorCount
  firstDir := le32 image.data 48
  miniCutoff := 0x1000
  firstMinifat := le32 image.data 60
  minifatCount := image.minifatSids.length
  fatSectors := image.fatSids

lemma sectorSize_cases (h : LaidOut image) : image.major = 3 ∧ image.sectorSize = 512 ∨
    image.major = 4 ∧ image.sectorSize = 4096 := by
  rcases h.version with hmajor | hmajor <;> simp [Image.sectorSize, hmajor]

lemma words_difat (h : LaidOut image) : words32 (image.data.drop 76) 109 =
    image.fatSids ++ List.replicate (109 - image.fatSids.length) freeSector := by
  have hcount := h.fatCount
  refine List.ext_getElem? fun i => ?_
  by_cases hi : i < 109
  · have hword : le32 (image.data.drop 76) (4 * i) = le32 image.data (76 + 4 * i) := by
      simp only [le32, slice, List.drop_drop, Nat.add_sub_cancel_left, Nat.add_comm 76]
    rw [words32, List.getElem?_map, List.getElem?_range hi, Option.map_some, hword, h.difat i hi]
    by_cases hsid : i < image.fatSids.length
    · rw [List.getElem?_append_left hsid, List.getD_eq_getElem?_getD, List.getElem?_eq_getElem hsid,
        Option.getD_some]
    · rw [List.getElem?_append_right (by omega), List.getElem?_replicate_of_lt (by omega),
        List.getD_eq_getElem?_getD, List.getElem?_eq_none (by omega), Option.getD_none]
  · rw [List.getElem?_eq_none, List.getElem?_eq_none] <;> simp [words32] <;> omega

/-- The header is read as it was written, in both versions. -/
lemma parseHeader_eq (h : LaidOut image) : parseHeader image.data = .ok (headerOf image) := by
  have hsize := h.sectorSize_cases
  have hheader := h.header
  have hfat : ((words32 (image.data.drop 76) 109).filter (· < mark)).take image.fatSids.length =
      image.fatSids := by
    have hfree : (List.replicate (109 - image.fatSids.length) freeSector).filter (· < mark) = [] :=
      List.filter_eq_nil_iff.2 fun word hword => by
        rw [List.eq_of_mem_replicate hword]
        decide
    rw [h.words_difat, List.filter_append, hfree, List.append_nil, List.take_of_length_le
      (List.length_filter_le _ _), List.filter_eq_self]
    exact fun sid hsid => by simpa using (h.fatInside sid hsid).1
  have hshift : 2 ^ image.sectorShift = image.sectorSize := by
    rcases h.version with hmajor | hmajor <;> simp [Image.sectorShift, Image.sectorSize, hmajor]
  have hcount : (image.data.length - 512) / image.sectorSize = image.sectorCount := by
    obtain ⟨count, hlength⟩ := h.wholeSectors
    rw [Image.sectorCount, hlength]
    rcases hsize with ⟨-, hsize⟩ | ⟨-, hsize⟩ <;> rw [hsize] <;> omega
  unfold parseHeader
  simp only [h.fatCountField, h.shiftField, h.majorField, h.miniShiftField, h.cutoffField,
    h.minifatCount, hfat, hshift, hcount]
  rw [if_neg (by omega), if_neg, if_neg (by have := h.fatCount; omega)]
  · rfl
  · rcases hsize with ⟨hmajor, hsize⟩ | ⟨hmajor, hsize⟩ <;> simp [hmajor, hsize]

lemma sector_eq {sid : ℕ} (hsid : sid < image.sectorCount) :
    sector image.data (headerOf image) sid = .ok (slice image.data (512 + sid * image.sectorSize)
      (512 + sid * image.sectorSize + image.sectorSize)) := by
  rw [sector, if_neg (by simpa [headerOf] using hsid)]
  rfl

/-- In version 3 a header of 512 bytes is one sector. -/
lemma sector_three (hmajor : image.major = 3) {sid : ℕ} (hsid : sid < image.sectorCount) :
    sector image.data (headerOf image) sid = .ok (image.sectorAt sid) := by
  have hstart : 512 + sid * image.sectorSize = (sid + 1) * image.sectorSize := by
    simp only [Image.sectorSize, hmajor, if_true]
    omega
  rw [sector_eq hsid, hstart, Image.sectorAt]

lemma sectors_three (hmajor : image.major = 3) {sids : List ℕ}
    (h : ∀ sid ∈ sids, sid < image.sectorCount) :
    sectors image.data (headerOf image) sids = .ok (image.contents sids) := by
  have hmap : sids.mapM (sector image.data (headerOf image)) = .ok (sids.map image.sectorAt) := by
    rw [mapM_eq_ok_iff]
    exact List.forall₂_map_right_iff.2
      (List.forall₂_same.2 fun sid hsid => sector_three hmajor (h sid hsid))
  rw [sectors, hmap]
  rfl

end LaidOut

/-! ## Chains -/

lemma leads_functional (table : List ℕ) :
    Linked.Functional (fun sid => sid = endOfChain) (Leads table) where
  stop := by
    rintro sid next rfl ⟨hlt, -⟩
    exact absurd hlt (by decide)
  next := by
    rintro sid next next' ⟨-, h⟩ ⟨-, h'⟩
    exact Option.some.inj (h.symm.trans h')

lemma chainFrom_of_mark {table seen : List ℕ} {remaining current : ℕ} (h : mark ≤ current) :
    chainFrom table remaining seen current = .ok [] := by
  rw [chainFrom.eq_def]
  exact if_pos h

lemma chainFrom_zero {table seen result : List ℕ} {current : ℕ} (h : current < mark) :
    chainFrom table 0 seen current ≠ .ok result := by
  rw [chainFrom.eq_def]
  simp only [ge_iff_le, Nat.not_le.2 h, if_false]
  exact fun heq => (by cases heq)

lemma chainFrom_succ {table seen : List ℕ} {remaining current next : ℕ} (h : current < mark)
    (hentry : table[current]? = some next) (hnew : current ∉ seen) :
    chainFrom table (remaining + 1) seen current = (do
      let rest ← chainFrom table remaining (current :: seen) next
      return current :: rest) := by
  rw [chainFrom.eq_def]
  simp only [ge_iff_le, Nat.not_le.2 h, if_false, hentry, hnew]

/-- A chain is read to its end, if it is not longer than the limit. -/
lemma chainFrom_of_linked {table sids seen : List ℕ} {start remaining : ℕ}
    (h : Chained table start sids) (hfresh : ∀ sid ∈ sids, sid ∉ seen) :
    (sids.length ≤ remaining → chainFrom table remaining seen start = .ok sids) ∧
      (remaining < sids.length → ∀ result, chainFrom table remaining seen start ≠ .ok result) := by
  have hnodup := h.nodup (leads_functional table)
  induction h generalizing remaining seen with
  | stop hends =>
      obtain rfl := hends
      refine ⟨fun _ => ?_, fun hlt => absurd hlt (Nat.not_lt_zero _)⟩
      exact chainFrom_of_mark (by decide)
  | @next start following sids hleads rest ih =>
      obtain ⟨hlt, hentry⟩ := hleads
      obtain ⟨hnot, hnodup⟩ := List.nodup_cons.1 hnodup
      have hstart : start ∉ seen := hfresh start List.mem_cons_self
      have hrest : ∀ sid ∈ sids, sid ∉ start :: seen := by
        intro sid hsid
        rw [List.mem_cons, not_or]
        exact ⟨fun heq => hnot (heq ▸ hsid), hfresh sid (List.mem_cons_of_mem _ hsid)⟩
      cases remaining with
      | zero =>
          exact ⟨fun hle => absurd hle (Nat.not_succ_le_zero _), fun _ _ => chainFrom_zero hlt⟩
      | succ remaining =>
          obtain ⟨hok, herror⟩ := @ih (start :: seen) remaining hrest hnodup
          rw [chainFrom_succ hlt hentry hstart, List.length_cons]
          refine ⟨fun hle => ?_, fun hlt result h => ?_⟩
          · rw [hok (by omega)]
            rfl
          · obtain ⟨tail, htail, -⟩ := bind_eq_ok.1 h
            exact herror (by omega) tail htail

lemma chain_of_linked {table sids : List ℕ} {start maximum : ℕ} (h : Chained table start sids)
    (hle : sids.length ≤ maximum) : chain start table maximum = .ok sids :=
  (chainFrom_of_linked h (by simp)).1 hle

/-- A chain that is read is within the limit. -/
lemma length_le_of_chain {table sids result : List ℕ} {start maximum : ℕ}
    (h : Chained table start sids) (hchain : chain start table maximum = .ok result) :
    sids.length ≤ maximum ∧ result = sids := by
  by_cases hle : sids.length ≤ maximum
  · rw [chain_of_linked h hle] at hchain
    exact ⟨hle, (Except.ok.inj hchain).symm⟩
  · exact absurd hchain ((chainFrom_of_linked h (by simp)).2 (by omega) result)

/-! ## The directory -/

section Directory

variable {image : Image}

lemma length_sectorAt (h : LaidOut image) {sid : ℕ} (hsid : sid < image.sectorCount) :
    (image.sectorAt sid).length = image.sectorSize := by
  obtain ⟨count, hlength⟩ := h.wholeSectors
  have hpos : 0 < image.sectorSize := by rcases h.sectorSize_cases with ⟨-, h⟩ | ⟨-, h⟩ <;> omega
  have hcount : image.sectorCount = count - 1 := by
    rw [Image.sectorCount, hlength, Nat.mul_div_cancel_left _ hpos]
  refine length_slice_of_le ?_
  calc (sid + 1) * image.sectorSize + image.sectorSize
      = (sid + 2) * image.sectorSize := (Nat.succ_mul (sid + 1) image.sectorSize).symm
    _ ≤ count * image.sectorSize := Nat.mul_le_mul_right _ (by omega)
    _ = image.data.length := by rw [hlength, Nat.mul_comm]

lemma length_contents (h : LaidOut image) {sids : List ℕ}
    (hsids : ∀ sid ∈ sids, sid < image.sectorCount) :
    (image.contents sids).length = sids.length * image.sectorSize := by
  induction sids with
  | nil => simp [Image.contents]
  | cons sid sids ih =>
      have hrest := ih fun other hother => hsids other (List.mem_cons_of_mem _ hother)
      rw [Image.contents] at hrest ⊢
      rw [List.map_cons, List.flatten_cons, List.length_append, hrest,
        length_sectorAt h (hsids sid List.mem_cons_self), List.length_cons, Nat.succ_mul,
        Nat.add_comm]

lemma slots_dvd (h : LaidOut image) : 128 ∣ image.directory.length := by
  rw [Image.directory, length_contents h h.directory.2]
  refine Dvd.dvd.mul_left ?_ _
  rcases h.sectorSize_cases with ⟨-, h⟩ | ⟨-, h⟩ <;> rw [h] <;> decide

/-- The entries of the directory. -/
def entriesOf (image : Image) : List CfbEntry :=
  (List.range (image.directory.length / 128)).filterMap fun id => readEntry (image.slotAt id, id)

lemma readEntries_eq (h : LaidOut image) (maxComponents : ℕ) :
    readEntries image.directory maxComponents =
      if (entriesOf image).length > maxComponents then
        .error (.document "CFB directory entry limit exceeded")
      else .ok (entriesOf image) := by
  have hdvd := slots_dvd h
  have hslots : (chunks 128 image.directory).zipIdx =
      (List.range (image.directory.length / 128)).map fun id => (image.slotAt id, id) := by
    rw [chunks_eq_map (by decide) hdvd]
    refine List.ext_getElem? fun i => ?_
    by_cases hi : i < image.directory.length / 128
    · simp [hi, Image.slotAt]
    · simp [hi]
  have hfull : ∀ slot ∈ (chunks 128 image.directory).zipIdx,
      decide (slot.1.length = 128) = true := by
    intro slot hslot
    rw [hslots] at hslot
    obtain ⟨id, hid, rfl⟩ := List.mem_map.1 hslot
    have hid : id < image.directory.length / 128 := List.mem_range.1 hid
    exact decide_eq_true (length_slice_of_le (by omega))
  unfold readEntries
  rw [List.takeWhile_eq_self_iff.2 hfull, hslots]
  simp only [List.filterMap_map]
  rfl

lemma entryId_of_readEntry {raw : Bytes} {id : ℕ} {entry : CfbEntry}
    (h : readEntry (raw, id) = some entry) : entry.entryId = id := by
  unfold readEntry at h
  simp only [] at h
  split at h
  · cases h
  · obtain rfl := Option.some.inj h
    rfl

/-- There is nothing beyond the last slot. -/
lemma readEntry_beyond {id : ℕ} (h : ¬id < image.directory.length / 128)
    (hdvd : 128 ∣ image.directory.length) : readEntry (image.slotAt id, id) = none := by
  have hempty : image.slotAt id = [] :=
    List.length_eq_zero_iff.1 (by rw [Image.slotAt, length_slice]; omega)
  rw [hempty]
  rfl

lemma mem_entriesOf (h : LaidOut image) {entry : CfbEntry} :
    entry ∈ entriesOf image ↔
      readEntry (image.slotAt entry.entryId, entry.entryId) = some entry := by
  unfold entriesOf
  rw [List.mem_filterMap]
  constructor
  · rintro ⟨id, -, hread⟩
    rwa [entryId_of_readEntry hread]
  · intro hread
    refine ⟨entry.entryId, List.mem_range.2 ?_, hread⟩
    by_contra hbeyond
    rw [readEntry_beyond hbeyond (slots_dvd h)] at hread
    cases hread

/-- The ids of the entries are the slots in use. -/
lemma map_entryId (image : Image) : (entriesOf image).map (·.entryId) =
    (List.range (image.directory.length / 128)).filter fun id =>
      (readEntry (image.slotAt id, id)).isSome := by
  unfold entriesOf
  induction List.range (image.directory.length / 128) with
  | nil => rfl
  | cons id ids ih =>
      cases hread : readEntry (image.slotAt id, id) with
      | none => simpa [hread] using ih
      | some entry => simpa [hread, entryId_of_readEntry hread] using ih

lemma find_entry (h : LaidOut image) (id : ℕ) :
    (entriesOf image).find? (fun entry => entry.entryId = id) =
      readEntry (image.slotAt id, id) := by
  cases hread : readEntry (image.slotAt id, id) with
  | none =>
      rw [List.find?_eq_none]
      intro entry hmem hid
      rw [mem_entriesOf h, of_decide_eq_true hid, hread] at hmem
      cases hmem
  | some entry =>
      have hid := entryId_of_readEntry hread
      have hmem : entry ∈ entriesOf image := (mem_entriesOf h).2 (by rwa [hid])
      cases hfind : (entriesOf image).find? (fun entry => entry.entryId = id) with
      | none => exact absurd hid (by simpa using List.find?_eq_none.1 hfind entry hmem)
      | some found =>
          have hfound := (mem_entriesOf h).1 (List.mem_of_find?_eq_some hfind)
          rw [show found.entryId = id by simpa using List.find?_some hfind, hread] at hfound
          exact hfound.symm

end Directory

/-! ## The entries of the objects -/

lemma length_le_encodeUtf16 (text : PyStr) : text.length ≤ (encodeUtf16 text).length := by
  induction text with
  | nil => exact Nat.le_refl 0
  | cons c text ih =>
      have hpiece : 1 ≤ (if c.val < 0x10000 then twoBytes c.val
          else twoBytes (0xD800 + (c.val - 0x10000) / 0x400) ++
            twoBytes (0xDC00 + (c.val - 0x10000) % 0x400)).length := by
        split <;> simp [twoBytes]
      rw [encodeUtf16, List.flatMap_cons, ← encodeUtf16, List.length_append, List.length_cons]
      omega

/-- The entry of a slot with these fields. -/
lemma Image.Slot.readEntry_eq {raw : Bytes} {name : PyStr} {kind left right child start size : ℕ}
    (h : Image.Slot raw name kind left right child start size) (hname : LegalName name)
    (hkind : kind ≠ 0) (id : ℕ) : readEntry (raw, id) = some
      { entryId := id
        name := name
        kind := kind
        start := start
        size := size
        leftSibling := left
        rightSibling := right
        child := child
        data := []
        path := [] } := by
  have hshort := hname.short
  have hdecode : (decodeUtf16 (raw.take ((encodeUtf16 name).length + 2 - 2))).take 4096 = name := by
    rw [Nat.add_sub_cancel, h.name, decodeUtf16_encodeUtf16 hname.wellFormed]
    exact List.take_of_length_le (by have := length_le_encodeUtf16 name; omega)
  simp only [readEntry, h.nameLength, h.kind, h.left, h.right, h.child, h.start, h.size, hdecode]
  rw [if_neg (by omega)]

/-- The entry of an object. -/
structure Image.Describes (image : Image) (entry : CfbEntry) (item : Located) : Prop where
  slot : readEntry (image.slotAt item.id, item.id) = some entry
  kind : entry.kind = if item.content.isSome then 2 else 1
  content : ∀ content ∈ item.content, entry.size = content.length ∧
    image.Stored entry.start content

lemma exists_describes {image : Image} {objects : Objects} {position : List PyStr}
    (h : image.Holds objects) {item : Located} (hitem : item ∈ objects.located position) :
    ∃ entry, image.Describes entry item := by
  induction objects generalizing position with
  | none => simp [Objects.located] at hitem
  | stream id name content left right ihleft ihright =>
      obtain ⟨hname, ⟨start, hslot, hstored⟩, hleft, hright⟩ := h
      rcases List.mem_append.1 hitem with hmem | hmem
      · exact ihleft hleft hmem
      rcases List.mem_cons.1 hmem with rfl | hmem
      · refine ⟨_, ⟨hslot.readEntry_eq hname (by decide) id, rfl, fun other hother => ?_⟩⟩
        obtain rfl := Option.some.inj hother
        exact ⟨rfl, hstored⟩
      · exact ihright hright hmem
  | storage id name children left right ihchildren ihleft ihright =>
      obtain ⟨hname, ⟨start, size, hslot⟩, hchildren, hleft, hright⟩ := h
      rcases List.mem_append.1 hitem with hmem | hmem
      · exact ihleft hleft hmem
      rcases List.mem_cons.1 hmem with rfl | hmem
      · refine ⟨_, ⟨hslot.readEntry_eq hname (by decide) id, rfl, fun other hother => ?_⟩⟩
        cases hother
      rcases List.mem_append.1 hmem with hmem | hmem
      · exact ihchildren hchildren hmem
      · exact ihright hright hmem

lemma map_id_located (objects : Objects) (position : List PyStr) :
    (objects.located position).map (·.id) = objects.ids := by
  induction objects generalizing position with
  | none => rfl
  | stream id name content left right ihleft ihright =>
      simp [Objects.located, Objects.ids, ihleft, ihright]
  | storage id name children left right ihchildren ihleft ihright =>
      simp [Objects.located, Objects.ids, ihchildren, ihleft, ihright]

section Entries

variable {image : Image}

/-- The entry of the root. -/
def rootEntry (image : Image) : CfbEntry where
  entryId := 0
  name := image.rootName
  kind := 5
  start := image.rootStart
  size := image.ministream.length
  leftSibling := 0xFFFFFFFF
  rightSibling := 0xFFFFFFFF
  child := image.objects.first
  data := []
  path := []

lemma readEntry_root (h : LaidOut image) :
    readEntry (image.slotAt 0, 0) = some (rootEntry image) :=
  h.root.readEntry_eq h.rootName (by decide) 0

/-- The entries are those of the root and of the objects. -/
lemma entry_cases (h : LaidOut image) {entry : CfbEntry} (hentry : entry ∈ entriesOf image)
    (position : List PyStr) : entry = rootEntry image ∨
      ∃ item ∈ image.objects.located position, item.id = entry.entryId ∧
        image.Describes entry item := by
  have hread := (mem_entriesOf h).1 hentry
  by_cases hzero : entry.entryId = 0
  · rw [hzero, readEntry_root h] at hread
    exact .inl (Option.some.inj hread).symm
  by_cases hid : entry.entryId ∈ image.objects.ids
  · rw [← map_id_located image.objects position] at hid
    obtain ⟨item, hitem, hid⟩ := List.mem_map.1 hid
    obtain ⟨found, hfound⟩ := exists_describes h.objects hitem
    have hslot := hfound.slot
    rw [hid, hread] at hslot
    obtain rfl := Option.some.inj hslot
    exact .inr ⟨item, hitem, hid, hfound⟩
  · have hkind := h.unused entry.entryId hzero hid
    rw [readEntry] at hread
    simp [hkind] at hread

lemma entriesOf_eq_cons (h : LaidOut image) :
    ∃ rest, entriesOf image = rootEntry image :: rest := by
  have hmem : rootEntry image ∈ entriesOf image := (mem_entriesOf h).2 (readEntry_root h)
  have hslots : 0 < image.directory.length / 128 := by
    by_contra hnone
    rw [entriesOf, Nat.eq_zero_of_not_pos hnone] at hmem
    simp at hmem
  obtain ⟨count, hcount⟩ := Nat.exists_eq_succ_of_ne_zero (Nat.ne_of_gt hslots)
  rw [entriesOf, hcount, List.range_succ_eq_map, List.filterMap_cons, readEntry_root h]
  exact ⟨_, rfl⟩

lemma rootOf_eq (h : LaidOut image) : rootOf (entriesOf image) = some (rootEntry image) := by
  obtain ⟨rest, hrest⟩ := entriesOf_eq_cons h
  rw [rootOf, hrest]
  rfl

/-- There are as many entries as objects, and the root. -/
lemma length_entriesOf (h : LaidOut image) :
    (entriesOf image).length = image.objects.ids.length + 1 := by
  have hnodup : ((entriesOf image).map (·.entryId)).Nodup := by
    rw [map_entryId]
    exact List.nodup_range.filter _
  have hperm : ((entriesOf image).map (·.entryId)).Perm (0 :: image.objects.ids) := by
    refine (List.perm_ext_iff_of_nodup hnodup
      (List.nodup_cons.2 ⟨h.rootApart, h.distinct⟩)).2 fun id => ?_
    rw [List.mem_map, List.mem_cons]
    constructor
    · rintro ⟨entry, hentry, rfl⟩
      rcases entry_cases h hentry [] with rfl | ⟨item, hitem, hid, -⟩
      · exact .inl rfl
      · rw [← hid, ← map_id_located image.objects []]
        exact .inr (List.mem_map_of_mem hitem)
    · rintro (rfl | hid)
      · exact ⟨rootEntry image, (mem_entriesOf h).2 (readEntry_root h), rfl⟩
      · rw [← map_id_located image.objects []] at hid
        obtain ⟨item, hitem, rfl⟩ := List.mem_map.1 hid
        obtain ⟨entry, hentry⟩ := exists_describes h.objects hitem
        have hentryId := entryId_of_readEntry hentry.slot
        exact ⟨entry, (mem_entriesOf h).2 (hentryId ▸ hentry.slot), hentryId⟩
  have hlength := hperm.length_eq
  rwa [List.length_map, List.length_cons] at hlength

/-- The directory is read if its entries are within the limit. -/
lemma readEntries_eq_ok (h : LaidOut image) {maximum : ℕ} {result : List CfbEntry} :
    readEntries image.directory maximum = .ok result ↔
      image.objects.ids.length + 1 ≤ maximum ∧ result = entriesOf image := by
  rw [readEntries_eq h, length_entriesOf h]
  split
  · next hmany =>
      refine ⟨fun hrun => (by cases hrun), fun hfits => ?_⟩
      exact absurd hfits.1 (Nat.not_le.2 hmany)
  · next hfew =>
      exact ⟨fun hrun => ⟨Nat.not_lt.1 hfew, (Except.ok.inj hrun).symm⟩, fun hfits => by
        rw [hfits.2]⟩

end Entries

end Cfb

end AVBox
