import AVBox.Analyzers.DiskImages
import AVBox.Lib.Fallible
import AVBox.Lib.Linked

/-!
# Amiga volumes as AmigaDOS lays them out

A volume holds a tree of drawers and files (`Entries`).  `LaidOut` says, field by field, what the
format prescribes for the standard image of such a tree: the root block, the header blocks of the
entries, the hash tables with their chains, and the data blocks of the files.  A header block has
72 places for pointers to data blocks, and the extension blocks of the file list the others.
`file_data` does not go on to the extension blocks (`fileData_of_small`, `fileData_of_large`).
-/

namespace AVBox

namespace Adf

open Binary Fallible

/-! ## Drawers and files -/

/-- The entries of a drawer, in the order of its hash table, with the blocks they take. -/
inductive Entries
  | none
  | file (key : ℕ) (name : PyStr) (content : Bytes) (dataBlocks extensions : List ℕ)
      (rest : Entries)
  | drawer (key : ℕ) (name : PyStr) (inner rest : Entries)

namespace Entries

/-- The header blocks of the entries themselves. -/
def keys : Entries → List ℕ
  | none => []
  | file key _ _ _ _ rest => key :: rest.keys
  | drawer key _ _ rest => key :: rest.keys

/-- All blocks that the entries take. -/
def used : Entries → List ℕ
  | none => []
  | file key _ _ dataBlocks extensions rest => key :: (dataBlocks ++ extensions ++ rest.used)
  | drawer key _ inner rest => key :: (inner.used ++ rest.used)

/-- The names of the drawers around an entry and its own name, joined. -/
def joined (names : List PyStr) : PyStr := List.intercalate (PyStr.ofString "/") names

/-- The paths and contents of the files of entries that stand in nested drawers of these names. -/
def files (position : List PyStr) : Entries → List (PyStr × Bytes)
  | none => []
  | file _ name content _ _ rest => (joined (position ++ [name]), content) :: rest.files position
  | drawer _ name inner rest => inner.files (position ++ [name]) ++ rest.files position

/-- The nested calls that walking the entries takes. -/
def height : Entries → ℕ
  | none => 1
  | file _ _ _ _ _ rest => rest.height
  | drawer _ _ inner rest => max (inner.height + 1) rest.height

end Entries

/-! ## Blocks -/

/-- `text.encode("latin-1")`. -/
def encodeLatin1 (text : PyStr) : Bytes := text.map fun c => UInt8.ofNat c.val

/-- A legal AmigaDOS name. -/
structure LegalName (name : PyStr) : Prop where
  nonempty : name ≠ []
  short : name.length ≤ 30
  latin : ∀ c ∈ name, c.val < 256
  noSlash : 0x2F ∉ name
  noBackslash : 0x5C ∉ name
  noColon : 0x3A ∉ name
  notDots : name ∉ PyStr.dots

/-- The fields of the header block of a drawer, a file or the volume. -/
structure Header (raw : Bytes) (kind : ℤ) (name : PyStr) : Prop where
  type : be32 raw 0 = 2
  checksum : blockChecksum raw = true
  kind : signedBe32 raw 508 = kind
  nameLength : u8 raw 432 = name.length
  name : slice raw 433 (433 + name.length) = encodeLatin1 name

/-- The pointers to data blocks in a block, from offset 308 downwards. -/
def Lists (raw : Bytes) (dataBlocks : List ℕ) : Prop :=
  ∀ i < 72, be32 raw (308 - 4 * i) = dataBlocks.getD i 0

/-- The fields of an extension block. -/
structure ExtensionBlock (raw : Bytes) (header : ℕ) (dataBlocks : List ℕ) : Prop where
  type : be32 raw 0 = 16
  checksum : blockChecksum raw = true
  kind : signedBe32 raw 508 = -3
  parent : be32 raw 500 = header
  pointers : Lists raw dataBlocks

/-- The fields of an OFS data block. -/
structure OfsBlock (raw : Bytes) (header : ℕ) (part : Bytes) : Prop where
  type : be32 raw 0 = 8
  header : be32 raw 4 = header
  size : be32 raw 12 = part.length
  checksum : blockChecksum raw = true
  part : slice raw 24 (24 + part.length) = part

/-- How much of a file a data block holds. -/
def dataSize : AdfVariant → ℕ
  | .ofs => 488
  | .ffs => 512

section Blocks

variable (data : Bytes)

/-- A chain of entries with the same hash value, linked from offset 496. -/
abbrev HashChain : ℕ → List ℕ → Prop :=
  Linked (fun key => key = 0) fun key next => key ≠ 0 ∧ be32 (blockAt data key) 496 = next

/-- The hash table of a directory, whose 72 chains have these entries.  The parser does not look at
which chain an entry is in. -/
def HasTable (raw : Bytes) (keys : List ℕ) : Prop :=
  ∃ chains : List (List ℕ), chains.flatten = keys ∧
    List.Forall₂ (fun bucket chain => HashChain data (be32 raw (24 + bucket * 4)) chain)
      (List.range 72) chains

/-- The extension blocks of a file, linked from offset 504, and the data blocks they list. -/
inductive Extended (header : ℕ) : ℕ → List ℕ → List ℕ → Prop
  | stop : Extended header 0 [] []
  | next {key following : ℕ} {keys dataBlocks : List ℕ} (hmore : dataBlocks ≠ [])
      (hblock : ExtensionBlock (blockAt data key) header (dataBlocks.take 72))
      (hfollowing : be32 (blockAt data key) 504 = following)
      (rest : Extended header following keys (dataBlocks.drop 72)) :
      Extended header key (key :: keys) dataBlocks

/-- A data block holds a part of the file. -/
def HoldsPart (variant : AdfVariant) (header key : ℕ) (part : Bytes) : Prop :=
  match variant with
  | .ofs => OfsBlock (blockAt data key) header part
  | .ffs => (blockAt data key).take part.length = part

/-- The blocks of a file. -/
structure FileAt (variant : AdfVariant) (key : ℕ) (name : PyStr) (content : Bytes)
    (dataBlocks extensions : List ℕ) : Prop where
  header : Header (blockAt data key) (-3) name
  size : be32 (blockAt data key) 324 = content.length
  pointers : Lists (blockAt data key) (dataBlocks.take 72)
  extensions : Extended data key (be32 (blockAt data key) 504) extensions (dataBlocks.drop 72)
  parts : List.Forall₂ (HoldsPart data variant key) dataBlocks (chunks (dataSize variant) content)

/-- Every entry has its blocks. -/
def Holds (variant : AdfVariant) : Entries → Prop
  | .none => True
  | .file key name content dataBlocks extensions rest =>
      LegalName name ∧ FileAt data variant key name content dataBlocks extensions ∧
        Holds variant rest
  | .drawer key name inner rest =>
      LegalName name ∧ Header (blockAt data key) 2 name ∧
        HasTable data (blockAt data key) inner.keys ∧ Holds variant inner ∧ Holds variant rest

end Blocks

/-- An image and the tree on it. -/
structure Volume where
  data : Bytes
  variant : AdfVariant
  label : PyStr
  entries : Entries

/-- The image is laid out as AmigaDOS prescribes. -/
structure LaidOut (vol : Volume) : Prop where
  size : vol.data.length = standardSize
  dosType : vol.data.take 3 = ascii "DOS"
  typeByte : u8 vol.data 3 = if vol.variant = .ofs then 0 else 1
  root : Header (blockAt vol.data rootKey) 1 vol.label
  label : vol.label.length ≤ 30 ∧ ∀ c ∈ vol.label, c.val < 256
  table : HasTable vol.data (blockAt vol.data rootKey) vol.entries.keys
  entries : Holds vol.data vol.variant vol.entries
  inside : ∀ key ∈ vol.entries.used, 2 ≤ key ∧ key < blocks
  distinct : (rootKey :: vol.entries.used).Nodup

/-- The volume reads back: it is taken for one of its variant, with exactly one entry for each
file, under the path and with the bytes of the file. -/
def RoundTrip (frames : ℕ) (vol : Volume) : Prop :=
  ∃ image, parseDiskImage frames vol.data = .ok (some image) ∧
    image.filesystem = .adf vol.variant ∧
    image.entries.map (fun entry => (entry.path, entry.data)) = vol.entries.files []

/-! ## Header blocks -/

section Reading

variable {data : Bytes}

lemma length_blockAt (hsize : data.length = standardSize) {key : ℕ} (hkey : key < blocks) :
    (blockAt data key).length = 512 := by
  rw [blockAt, Nat.succ_mul]
  refine length_slice_of_le ?_
  rw [hsize, standardSize]
  rw [blocks] at hkey
  omega

lemma raises_block {key : ℕ} : Raises IsDiskImage (block data key) :=
  .ite (fun _ => .error rfl) fun _ => .ok _

lemma block_eq_ok {key : ℕ} (h : 2 ≤ key ∧ key < blocks) :
    block data key = .ok (blockAt data key) :=
  if_neg (not_or.2 ⟨Nat.not_lt.2 h.1, Nat.not_le.2 h.2⟩)

/-- A name is read as it was written. -/
lemma latin1_encodeLatin1 {text : PyStr} (h : ∀ c ∈ text, c.val < 256) :
    Partitions.latin1 (encodeLatin1 text) = text := by
  rw [Partitions.latin1, encodeLatin1, List.map_map]
  refine List.map_congr_left (fun c hc => ?_) |>.trans (List.map_id text)
  have hlatin := h c hc
  have hlimit := c.isLt
  refine Fin.ext ?_
  simp only [Function.comp_apply, Fin.val_ofNat, UInt8.toNat_ofNat', id]
  omega

lemma Header.bstr_eq_ok {raw : Bytes} {kind : ℤ} {name : PyStr} (h : Header raw kind name)
    (hlength : raw.length = 512) (hshort : name.length ≤ 30) (hlatin : ∀ c ∈ name, c.val < 256) :
    bstr raw 432 = .ok name := by
  have hname : slice raw (432 + 1) (432 + 1 + name.length) = encodeLatin1 name := h.name
  unfold bstr
  simp only [h.nameLength, hname, latin1_encodeLatin1 hlatin]
  exact if_neg (by omega)

lemma LegalName.safe {name : PyStr} (h : LegalName name) :
    ¬(name = [] ∨ 0x2F ∈ name ∨ 0x5C ∈ name ∨ name ∈ PyStr.dots) := by
  rintro (hempty | hslash | hbackslash | hdots)
  · exact h.nonempty hempty
  · exact h.noSlash hslash
  · exact h.noBackslash hbackslash
  · exact h.notDots hdots

/-! ## Hash tables -/

lemma chainKeys_zero (remaining : ℕ) : chainKeys data remaining 0 = [] := by
  rw [chainKeys.eq_def]
  rfl

/-- A chain is followed to its end. -/
lemma chainKeys_of_linked {key remaining : ℕ} {chain : List ℕ} (h : HashChain data key chain)
    (hinside : ∀ key ∈ chain, 2 ≤ key ∧ key < blocks) (hlength : chain.length ≤ remaining) :
    chainKeys data remaining key = chain := by
  induction h generalizing remaining with
  | stop hends => rw [hends, chainKeys_zero]
  | @next key following chain hleads rest ih =>
      obtain ⟨hkey, hfollowing⟩ := hleads
      have hin := hinside key List.mem_cons_self
      obtain ⟨remaining, rfl⟩ : ∃ k, remaining = k + 1 :=
        ⟨remaining - 1, by simp only [List.length_cons] at hlength; omega⟩
      have hrest := ih (fun other hother => hinside other (List.mem_cons_of_mem _ hother))
        (Nat.le_of_succ_le_succ hlength)
      have hstays : ¬(key < 2 ∨ key ≥ blocks) := not_or.2 ⟨Nat.not_lt.2 hin.1, Nat.not_le.2 hin.2⟩
      rw [chainKeys.eq_def]
      simp only [if_neg hkey, if_neg hstays, hfollowing, hrest]

lemma length_le_blocks {keys : List ℕ} (hinside : ∀ key ∈ keys, 2 ≤ key ∧ key < blocks)
    (hnodup : keys.Nodup) : keys.length ≤ blocks := by
  have hsub : keys.Subperm (List.range blocks) :=
    List.subperm_of_subset hnodup fun key hkey => List.mem_range.2 (hinside key hkey).2
  simpa using hsub.length_le

/-- The entries of a directory are those of its hash table. -/
lemma keys_of_hasTable {raw : Bytes} {entries : List ℕ} (h : HasTable data raw entries)
    (hinside : ∀ key ∈ entries, 2 ≤ key ∧ key < blocks) (hnodup : entries.Nodup) :
    keys data raw = entries := by
  obtain ⟨chains, rfl, hchains⟩ := h
  unfold keys
  generalize List.range 72 = buckets at hchains ⊢
  induction hchains with
  | nil => rfl
  | @cons bucket chain buckets chains hchain _ ih =>
      rw [List.flatten_cons] at hinside hnodup
      have hin : ∀ key ∈ chain, 2 ≤ key ∧ key < blocks := fun key hkey =>
        hinside key (List.mem_append_left _ hkey)
      have hlength := length_le_blocks hin (List.Nodup.of_append_left hnodup)
      rw [List.flatMap_cons, List.flatten_cons, chainKeys_of_linked hchain hin hlength,
        ih (fun key hkey => hinside key (List.mem_append_right _ hkey))
          (List.Nodup.of_append_right hnodup)]

/-! ## Contents of files -/

/-- The pointers are read with the first block first, and the places without one are left out. -/
lemma pointers_of_lists {raw : Bytes} {dataBlocks : List ℕ} (h : Lists raw dataBlocks)
    (hlength : dataBlocks.length ≤ 72) (hnonzero : ∀ key ∈ dataBlocks, key ≠ 0) :
    pointers raw = dataBlocks := by
  have hplaces : ((List.range 72).map fun i => be32 raw (24 + 4 * i)).reverse =
      dataBlocks ++ List.replicate (72 - dataBlocks.length) 0 := by
    refine List.ext_getElem? fun i => ?_
    by_cases hi : i < 72
    · rw [List.getElem?_reverse (by simpa using hi), List.getElem?_map, List.length_map,
        List.length_range, List.getElem?_range (by omega), Option.map_some,
        show 24 + 4 * (72 - 1 - i) = 308 - 4 * i by omega, h i hi, List.getD_eq_getElem?_getD]
      by_cases hblock : i < dataBlocks.length
      · rw [List.getElem?_append_left hblock, List.getElem?_eq_getElem hblock, Option.getD_some]
      · rw [List.getElem?_append_right (by omega), List.getElem?_replicate_of_lt (by omega),
          List.getElem?_eq_none (by omega), Option.getD_none]
    · rw [List.getElem?_eq_none (by simpa using hi), List.getElem?_eq_none]
      rw [List.length_append, List.length_replicate]
      omega
  have hzeros : (List.replicate (72 - dataBlocks.length) 0).filter (· ≠ 0) = [] :=
    List.filter_eq_nil_iff.2 fun key hkey => by simp [List.eq_of_mem_replicate hkey]
  rw [pointers, hplaces, List.filter_append, hzeros, List.append_nil, List.filter_eq_self]
  exact fun key hkey => decide_eq_true (hnonzero key hkey)

variable {variant : AdfVariant}

/-- No data block holds more than the format allows. -/
lemma length_payload {header key : ℕ} {value : Bytes}
    (h : payload variant header (blockAt data key) = .ok value) :
    value.length ≤ dataSize variant := by
  cases variant with
  | ffs =>
      obtain rfl := Except.ok.inj h
      rw [blockAt, length_slice, Nat.succ_mul, dataSize]
      omega
  | ofs =>
      rw [payload] at h
      split at h
      · cases h
      simp only [] at h
      split at h
      · cases h
      next hcount =>
        obtain rfl := Except.ok.inj h
        rw [length_slice, dataSize]
        have hcount := not_or.1 hcount
        omega

/-- A block that holds a part of the file begins with it. -/
lemma payload_of_holdsPart {header key : ℕ} {part : Bytes}
    (h : HoldsPart data variant header key part) (hpart : part.length ≤ dataSize variant) :
    ∃ value, payload variant header (blockAt data key) = .ok value ∧
      value.take part.length = part := by
  cases variant with
  | ffs => exact ⟨_, rfl, h⟩
  | ofs =>
      have h : OfsBlock (blockAt data key) header part := h
      refine ⟨part, ?_, List.take_length⟩
      have hsound : ¬(be32 (blockAt data key) 0 ≠ 8 ∨ be32 (blockAt data key) 4 ≠ header) :=
        not_or.2 ⟨not_not.2 h.type, not_not.2 h.header⟩
      have hfits : ¬(part.length > 488 ∨ blockChecksum (blockAt data key) = false) :=
        not_or.2 ⟨Nat.not_lt.2 hpart, by rw [h.checksum]; decide⟩
      rw [payload, if_neg hsound]
      simp only [h.size, h.part]
      exact if_neg hfits

/-- The loop over the data blocks of a file, with what it adds to the content. -/
lemma fileBlocks_cons {header size key : ℕ} {rest seen : List ℕ} {out value : Bytes}
    (hnew : key ∉ seen) (hkey : 2 ≤ key ∧ key < blocks)
    (hvalue : payload variant header (blockAt data key) = .ok value) :
    fileBlocks data variant header size (key :: rest) seen out =
      if (out ++ value).length ≥ size then .ok ((out ++ value).take size)
      else fileBlocks data variant header size rest (key :: seen) (out ++ value) := by
  rw [fileBlocks, if_neg hnew, block_eq_ok hkey]
  simp only [hvalue, bind, Except.bind]
  rfl

lemma fileBlocks_nil {header : ℕ} {seen : List ℕ} {out : Bytes} :
    fileBlocks data variant header (out.length + ([] : Bytes).length) [] seen out = .ok out := by
  rw [fileBlocks]
  exact if_neg fun h => h rfl

lemma dataSize_pos (variant : AdfVariant) : 0 < dataSize variant := by
  cases variant <;> decide

/-- Blocks that hold a content one part after the other are read to that content. -/
lemma fileBlocks_of_parts {header fuel : ℕ} {content out : Bytes} {dataBlocks seen : List ℕ}
    (hparts : List.Forall₂ (HoldsPart data variant header) dataBlocks
      (chunksFrom (dataSize variant) fuel content)) (hfuel : content.length ≤ fuel)
    (hinside : ∀ key ∈ dataBlocks, 2 ≤ key ∧ key < blocks) (hnodup : dataBlocks.Nodup)
    (hnew : ∀ key ∈ dataBlocks, key ∉ seen) :
    fileBlocks data variant header (out.length + content.length) dataBlocks seen out =
      .ok (out ++ content) := by
  induction fuel generalizing content out dataBlocks seen with
  | zero =>
      obtain rfl := List.length_eq_zero_iff.1 (Nat.le_zero.1 hfuel)
      obtain rfl := List.forall₂_nil_right_iff.1 hparts
      rw [fileBlocks_nil, List.append_nil]
  | succ fuel ih =>
      cases content with
      | nil =>
          obtain rfl := List.forall₂_nil_right_iff.1 hparts
          rw [fileBlocks_nil, List.append_nil]
      | cons byte content =>
          generalize hwhole : byte :: content = whole at hfuel ⊢
          rw [chunksFrom, hwhole] at hparts
          have hpos : 0 < whole.length := by rw [← hwhole]; exact Nat.succ_pos _
          have hunit := dataSize_pos variant
          obtain ⟨key, rest, hpart, hrest, rfl⟩ := List.forall₂_cons_right_iff.1 hparts
          obtain ⟨value, hvalue, htake⟩ := payload_of_holdsPart hpart (List.length_take_le _ _)
          rw [fileBlocks_cons (hnew key List.mem_cons_self) (hinside key List.mem_cons_self) hvalue]
          by_cases hlast : whole.length ≤ dataSize variant
          · -- The last part: the block may hold more than the rest of the file.
            rw [List.take_of_length_le hlast] at htake
            have hlength : whole.length ≤ value.length := by
              rw [← htake]
              exact List.length_take_le' _ _
            rw [if_pos (by rw [List.length_append]; omega), List.take_length_add_append, htake]
          · have hfull : (whole.take (dataSize variant)).length = dataSize variant :=
              List.length_take_of_le (by omega)
            rw [hfull, List.take_of_length_le (length_payload hvalue)] at htake
            obtain ⟨hkey, hnodup⟩ := List.nodup_cons.1 hnodup
            have hdrop : (whole.drop (dataSize variant)).length =
                whole.length - dataSize variant := List.length_drop
            have hrest := @ih (whole.drop (dataSize variant)) (out ++ value) rest (key :: seen)
              hrest (by omega) (fun other hother => hinside other (List.mem_cons_of_mem _ hother))
              hnodup (fun other hother => List.not_mem_cons_of_ne_of_not_mem
                (fun heq => hkey (heq ▸ hother)) (hnew other (List.mem_cons_of_mem _ hother)))
            have hvalueLength : value.length = dataSize variant := by rw [htake, hfull]
            have hsize : (out ++ value).length + (whole.drop (dataSize variant)).length =
                out.length + whole.length := by
              rw [List.length_append]
              omega
            rw [if_neg (by rw [List.length_append]; omega), ← hsize, hrest, htake,
              List.append_assoc, List.take_append_drop]

/-- Blocks that hold too little are not read to a content of that size. -/
lemma fileBlocks_of_few {header size : ℕ} {out : Bytes} {dataBlocks seen : List ℕ}
    (hfew : out.length + dataBlocks.length * dataSize variant < size) (content : Bytes) :
    fileBlocks data variant header size dataBlocks seen out ≠ .ok content := by
  induction dataBlocks generalizing seen out with
  | nil =>
      rw [fileBlocks, if_pos (by simp only [List.length_nil] at hfew; omega)]
      exact fun h => (by cases h)
  | cons key rest ih =>
      rw [List.length_cons, Nat.succ_mul] at hfew
      intro h
      rw [fileBlocks] at h
      split at h
      · cases h
      obtain ⟨raw, hraw, h⟩ := bind_eq_ok.1 h
      obtain ⟨value, hvalue, h⟩ := bind_eq_ok.1 h
      have hblock : raw = blockAt data key := by
        unfold block at hraw
        split at hraw
        · cases hraw
        · exact (Except.ok.inj hraw).symm
      rw [hblock] at hvalue
      have hlength := length_payload hvalue
      rw [if_neg (by rw [List.length_append]; omega)] at h
      exact ih (by rw [List.length_append]; omega) h

/-- A file whose header has a place for each of its blocks is read. -/
lemma FileAt.fileData_eq_ok {key : ℕ} {name : PyStr} {content : Bytes}
    {dataBlocks extensions : List ℕ}
    (h : FileAt data variant key name content dataBlocks extensions)
    (hinside : ∀ key ∈ dataBlocks, 2 ≤ key ∧ key < blocks) (hnodup : dataBlocks.Nodup)
    (hsmall : content.length ≤ 72 * dataSize variant) :
    fileData data variant (blockAt data key) key = .ok content := by
  have hcount : dataBlocks.length ≤ 72 :=
    h.parts.length_eq.trans_le (length_chunksFrom_le hsmall)
  have hlists := h.pointers
  rw [List.take_of_length_le hcount] at hlists
  have hnonzero : ∀ key ∈ dataBlocks, key ≠ 0 := fun key hkey => by
    have hkey := (hinside key hkey).1
    omega
  have hread := @fileBlocks_of_parts data variant key _ content [] dataBlocks [] h.parts
    (Nat.le_refl _) hinside hnodup (by simp)
  rw [List.length_nil, Nat.zero_add, List.nil_append] at hread
  rw [fileData, h.size, pointers_of_lists hlists hcount hnonzero, hread]

/-- A file with more blocks is not: the extension blocks are not looked at. -/
lemma FileAt.fileData_ne_ok {key : ℕ} {name : PyStr} {content : Bytes}
    {dataBlocks extensions : List ℕ}
    (h : FileAt data variant key name content dataBlocks extensions)
    (hlarge : 72 * dataSize variant < content.length) (result : Bytes) :
    fileData data variant (blockAt data key) key ≠ .ok result := by
  have hpointers : (Adf.pointers (blockAt data key)).length ≤ 72 :=
    (List.length_filter_le _ _).trans (by simp)
  refine fileBlocks_of_few (Nat.lt_of_le_of_lt ?_ (h.size ▸ hlarge)) result
  rw [List.length_nil, Nat.zero_add]
  exact Nat.mul_le_mul_right _ hpointers

end Reading

end Adf

end AVBox
