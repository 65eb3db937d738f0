import AVBox.Analyzers.AdfVolumes
import AVBox.Analyzers.FatImages
import AVBox.Lib.Extents
import Mathlib.Data.List.Iterate

/-!
# What a disk image hands out

The clusters or blocks that the contents of the entries are read from (`handedOut`).  Each content
is read from places of the image that lie apart, so that it is no longer than the image.  Whether
two entries share places is not looked at, except on an OFS volume, whose data blocks name their
owner: the contents together are no longer than the image if no places are shared
(`enumeration_bounded`).
-/

namespace AVBox

open Binary Fallible Walk

/-! ## FAT -/

namespace Fat

section Reader

variable (data : Bytes) (vol : Volume)

/-- The clusters of a file, along the allocation table. -/
def fileClusters (start size : ℕ) : List ℕ :=
  List.iterate (tableEntry data vol) start ((size + vol.clusterSize - 1) / vol.clusterSize)

def clusterExtent (cluster : ℕ) : Extent := ⟨clusterStart vol cluster, vol.clusterSize⟩

/-- The places that the content of a file is read from. -/
def fileExtents (row : Row) : List Extent :=
  (fileClusters data vol row.start row.size).map (clusterExtent vol)

/-- The rows of the entries, in their order. -/
def fileRows (frames : ℕ) : List Row :=
  ((enumerate data vol frames).toOption.getD []).map Found.row

end Reader

variable {data : Bytes} {vol : Volume}

lemma iterate_of_isChain {first : ℕ} {rest : List ℕ}
    (h : (first :: rest).IsChain (Leads data vol)) :
    first :: rest = List.iterate (tableEntry data vol) first (rest.length + 1) := by
  induction rest generalizing first with
  | nil => rfl
  | cons next rest ih =>
      obtain ⟨⟨-, hnext, -⟩, hrest⟩ := List.isChain_cons_cons.1 h
      rw [List.length_cons, List.iterate, hnext, ← ih hrest]

lemma fileClusters_of_trail (hvol : vol.Coherent data.length) {start size : ℕ} {rest : List ℕ}
    (h : Trail data vol size [] 0 start rest) :
    fileClusters data vol start size = start :: rest := by
  have hcount : (size + vol.clusterSize - 1) / vol.clusterSize = rest.length + 1 := by
    have hpos := hvol.clusterSize_pos
    have hshort := h.short
    have hlong := h.long
    refine Nat.div_eq_of_lt_le ?_ ?_
    · rw [Nat.succ_mul]
      omega
    · rw [Nat.succ_mul] at hlong ⊢
      rw [Nat.succ_mul]
      omega
  rw [fileClusters, hcount, ← iterate_of_isChain h.linked]

/-- Clusters lie apart. -/
lemma clusterExtent_apart {cluster cluster' : ℕ} (h : 2 ≤ cluster) (h' : 2 ≤ cluster')
    (hne : cluster ≠ cluster') :
    Extent.Apart (clusterExtent vol cluster) (clusterExtent vol cluster') := by
  have hbefore : ∀ {first second : ℕ}, 2 ≤ first → first < second →
      clusterStart vol first + vol.clusterSize ≤ clusterStart vol second := by
    intro first second hfirst hlt
    rw [clusterStart, Volume.clusterSize, ← Nat.add_mul, clusterStart, Nat.add_assoc,
      ← Nat.succ_mul]
    exact Nat.mul_le_mul_right _ (Nat.add_le_add_left (Nat.mul_le_mul_right _ (by omega)) _)
  rcases Nat.lt_or_gt_of_ne hne with hlt | hlt
  · exact .inl (hbefore h hlt)
  · exact .inr (hbefore h' hlt)

lemma read_clusterExtent (cluster : ℕ) :
    (clusterExtent vol cluster).read data = clusterBytes data vol cluster := by
  rw [clusterBytes, slice, Nat.add_sub_cancel_left]
  rfl

lemma holds_of_chain (hvol : vol.Coherent data.length) {row : Row} {content : Bytes}
    (h : chain data vol row.start (some row.size) = .ok content) :
    Extent.Holds data (fileExtents data vol row) content := by
  by_cases hsize : row.size = 0
  · have hextents : fileExtents data vol row = [] := by
      rw [fileExtents, fileClusters, hsize, Nat.zero_add, Nat.div_eq_of_lt
        (Nat.sub_lt hvol.clusterSize_pos Nat.one_pos)]
      rfl
    rw [hsize] at h
    rw [hextents, chain_zero_eq_ok h]
    exact ⟨fun _ hmem => absurd hmem List.not_mem_nil, .nil, 0, rfl⟩
  · obtain ⟨rest, htrail, rfl⟩ := (chain_eq_ok_iff hvol hsize).1 h
    have hinFile : ∀ cluster ∈ row.start :: rest, InFile data vol cluster :=
      List.forall_mem_cons.2 ⟨htrail.inFile, fun cluster hcluster =>
        inFile_of_inside hvol (htrail.inside cluster hcluster)⟩
    rw [fileExtents, fileClusters_of_trail hvol htrail]
    refine ⟨fun extent hextent => ?_, ?_, row.size, ?_⟩
    · obtain ⟨cluster, hcluster, rfl⟩ := List.mem_map.1 hextent
      exact (hinFile cluster hcluster).2
    · refine List.pairwise_map.2 (htrail.distinct.imp_of_mem fun hmem hmem' hne => ?_)
      exact clusterExtent_apart (hinFile _ hmem).1 (hinFile _ hmem').1 hne
    · rw [List.flatMap_map]
      simp only [read_clusterExtent]

/-- The contents of the entries, and the places they are read from. -/
lemma holds_fileRows (hvol : volume data = some vol) {frames : ℕ} {image : DiskImage}
    (h : parse frames data = .ok (some image)) :
    List.Forall₂ (Extent.Holds data) ((fileRows data vol frames).map (fileExtents data vol))
      (image.entries.map DiskEntry.data) := by
  rw [parse, hvol] at h
  obtain ⟨found, hfound, himage⟩ := bind_eq_ok.1 h
  obtain rfl := Option.some.inj (Except.ok.inj himage)
  have hcontents := (enumerated_of_ok hfound).content
  rw [fileRows, hfound]
  simp only [image, List.map_map, Except.toOption, Option.getD_some]
  rw [List.forall₂_map_left_iff, List.forall₂_map_right_iff, List.forall₂_same]
  exact fun f hf => holds_of_chain (coherent_of_volume hvol) (hcontents f hf)

end Fat

/-! ## ADF -/

namespace Adf

section Reader

variable (data : Bytes) (variant : AdfVariant)

/-- The places of the payload of a data block. -/
def payloadExtent (key : ℕ) : Extent :=
  match variant with
  | .ffs => ⟨key * 512, 512⟩
  | .ofs => ⟨key * 512 + 24, be32 (blockAt data key) 12⟩

/-- The data blocks that are read when `done` bytes of a file are read. -/
def blocksRead (size : ℕ) : ℕ → List ℕ → List ℕ
  | _, [] => []
  | done, key :: rest =>
      let done := done + (payloadExtent data variant key).size
      key :: if done ≥ size then [] else blocksRead size done rest

/-- The places that the content of a file is read from. -/
def fileExtents (key : ℕ) : List Extent :=
  let header := blockAt data key
  (blocksRead data variant (be32 header 324) 0 (pointers header)).map (payloadExtent data variant)

/-- The headers of the files that the walk has visited, in their order. -/
def headersOf (visited : List ℕ) : List ℕ :=
  visited.reverse.filter fun key => signedBe32 (blockAt data key) 508 = -3

/-- The headers of the entries, in their order. -/
def fileHeaders (frames : ℕ) : List ℕ :=
  match walk Exc.tooDeep (look data variant) frames ⟨[], [rootKey]⟩
      (listing data [] (blockAt data rootKey)) with
  | .ok final => headersOf data final.visited
  | .error _ => []

end Reader

variable {data : Bytes} {variant : AdfVariant}

/-- A data block of a file. -/
structure DataBlock (data : Bytes) (variant : AdfVariant) (header key : ℕ) : Prop where
  inside : 2 ≤ key ∧ key < blocks
  owned : variant = .ofs → be32 (blockAt data key) 4 = header ∧ be32 (blockAt data key) 12 ≤ 488

lemma DataBlock.between {header key : ℕ} (h : DataBlock data variant header key) :
    key * 512 ≤ (payloadExtent data variant key).start ∧
      (payloadExtent data variant key).start + (payloadExtent data variant key).size ≤
        (key + 1) * 512 := by
  cases variant with
  | ffs =>
      simp only [payloadExtent]
      omega
  | ofs =>
      have hcount := (h.owned rfl).2
      simp only [payloadExtent]
      omega

/-- Data blocks lie apart. -/
lemma DataBlock.apart {header header' key key' : ℕ} (h : DataBlock data variant header key)
    (h' : DataBlock data variant header' key') (hne : key ≠ key') :
    Extent.Apart (payloadExtent data variant key) (payloadExtent data variant key') := by
  have hbetween := h.between
  have hbetween' := h'.between
  rcases Nat.lt_or_gt_of_ne hne with hlt | hlt
  · exact .inl (by omega)
  · exact .inr (by omega)

lemma dataBlock_of_payload {header key : ℕ} {value part : Bytes}
    (hblock : block data key = .ok value) (hpart : payload variant header value = .ok part) :
    DataBlock data variant header key ∧ part = (payloadExtent data variant key).read data := by
  unfold block at hblock
  split at hblock
  · cases hblock
  · next hinside =>
      obtain rfl := Except.ok.inj hblock
      have hkey : 2 ≤ key ∧ key < blocks := by omega
      have hlength : (key + 1) * 512 - key * 512 = 512 := by omega
      cases variant with
      | ffs =>
          obtain rfl := Except.ok.inj hpart
          refine ⟨⟨hkey, fun h => by cases h⟩, ?_⟩
          rw [blockAt, slice, hlength]
          rfl
      | ofs =>
          rw [payload] at hpart
          split at hpart
          · cases hpart
          next howner =>
            dsimp only at hpart
            split at hpart
            · cases hpart
            next hcount =>
              obtain rfl := Except.ok.inj hpart
              refine ⟨⟨hkey, fun _ => ⟨by omega, by omega⟩⟩, ?_⟩
              have hslice : slice (blockAt data key) 24 (24 + be32 (blockAt data key) 12) =
                  slice data (key * 512 + 24) (key * 512 + 24 + be32 (blockAt data key) 12) :=
                slice_slice (by omega)
              rw [hslice, slice, Nat.add_sub_cancel_left]
              rfl

lemma length_read_payloadExtent (hsize : data.length = standardSize) {header key : ℕ}
    (h : DataBlock data variant header key) :
    ((payloadExtent data variant key).read data).length =
      (payloadExtent data variant key).size := by
  have hend := h.between.2
  have hinside := h.inside.2
  rw [blocks] at hinside
  rw [Extent.read, List.length_take, List.length_drop, hsize, standardSize]
  omega

/-- What the loop over the data blocks reads. -/
lemma blocksRead_of_fileBlocks (hsize : data.length = standardSize) {header size : ℕ}
    {keys seen : List ℕ} {out content : Bytes}
    (h : fileBlocks data variant header size keys seen out = .ok content) :
    (∀ key ∈ blocksRead data variant size out.length keys,
        DataBlock data variant header key ∧ key ∉ seen) ∧
      (blocksRead data variant size out.length keys).Nodup ∧
      content = (out ++ (blocksRead data variant size out.length keys).flatMap fun key =>
        (payloadExtent data variant key).read data).take size := by
  induction keys generalizing seen out with
  | nil =>
      rw [fileBlocks] at h
      split at h
      · cases h
      next hlength =>
        obtain rfl := Except.ok.inj h
        rw [blocksRead, List.flatMap_nil, List.append_nil, ← not_not.1 hlength, List.take_length]
        exact ⟨fun _ hmem => absurd hmem List.not_mem_nil, List.nodup_nil, rfl⟩
  | cons key rest ih =>
      rw [fileBlocks] at h
      split at h
      · cases h
      next hfresh =>
        obtain ⟨value, hblock, h⟩ := bind_eq_ok.1 h
        obtain ⟨part, hpart, h⟩ := bind_eq_ok.1 h
        obtain ⟨hkey, rfl⟩ := dataBlock_of_payload hblock hpart
        have hlength := length_read_payloadExtent hsize hkey
        rw [blocksRead]
        dsimp only at h
        rw [List.length_append, hlength] at h
        split at h
        next hdone =>
          rw [if_pos hdone]
          obtain rfl := Except.ok.inj h
          refine ⟨fun other hother => ?_, List.nodup_singleton key, ?_⟩
          · obtain rfl := List.mem_singleton.1 hother
            exact ⟨hkey, hfresh⟩
          · rw [List.flatMap_cons, List.flatMap_nil, List.append_nil]
        next hmore =>
          obtain ⟨hblocks, hnodup, hcontent⟩ := ih h
          rw [List.length_append, hlength] at hblocks hnodup hcontent
          rw [if_neg hmore]
          refine ⟨List.forall_mem_cons.2 ⟨⟨hkey, hfresh⟩, fun other hother => ?_⟩, ?_, ?_⟩
          · exact ⟨(hblocks other hother).1, fun hmem =>
              (hblocks other hother).2 (List.mem_cons_of_mem _ hmem)⟩
          · exact List.nodup_cons.2 ⟨fun hmem => (hblocks key hmem).2 List.mem_cons_self, hnodup⟩
          · rw [hcontent, List.flatMap_cons, List.append_assoc]

lemma holds_of_fileData (hsize : data.length = standardSize) {key : ℕ} {content : Bytes}
    (h : fileData data variant (blockAt data key) key = .ok content) :
    Extent.Holds data (fileExtents data variant key) content ∧
      ∀ extent ∈ fileExtents data variant key, ∃ other, DataBlock data variant key other ∧
        extent = payloadExtent data variant other := by
  obtain ⟨hblocks, hnodup, hcontent⟩ := blocksRead_of_fileBlocks hsize h
  have hextents : ∀ extent ∈ fileExtents data variant key, ∃ other,
      DataBlock data variant key other ∧ extent = payloadExtent data variant other := by
    intro extent hextent
    obtain ⟨other, hother, rfl⟩ := List.mem_map.1 hextent
    exact ⟨other, (hblocks other hother).1, rfl⟩
  refine ⟨⟨fun extent hextent => ?_, ?_, be32 (blockAt data key) 324, ?_⟩, hextents⟩
  · obtain ⟨other, hother, rfl⟩ := hextents extent hextent
    have hend := hother.between.2
    have hinside := hother.inside.2
    rw [blocks] at hinside
    rw [Extent.Within, hsize, standardSize]
    omega
  · exact List.pairwise_map.2 (hnodup.imp_of_mem fun hmem hmem' hne =>
      (hblocks _ hmem).1.apart (hblocks _ hmem').1 hne)
  · rw [fileExtents, List.flatMap_map]
    exact hcontent

/-- A directory has visited each block once, and has an entry for each file among them. -/
structure Listed (data : Bytes) (variant : AdfVariant) (state : WalkState) : Prop where
  once : state.visited.Nodup
  files : List.Forall₂ (fun key entry =>
    fileData data variant (blockAt data key) key = .ok entry.data) (headersOf data state.visited)
    state.entries

lemma headersOf_cons (key : ℕ) (visited : List ℕ) :
    headersOf data (key :: visited) = headersOf data visited ++
      if signedBe32 (blockAt data key) 508 = -3 then [key] else [] := by
  rw [headersOf, List.reverse_cons, List.filter_append, List.filter_singleton]
  simp [headersOf]

/-- What looking at an entry does, if it succeeds. -/
lemma look_cases {state : WalkState} {item : Item} {turn : Turn WalkState Item}
    (h : look data variant state item = .ok turn) :
    item.key ∉ state.visited ∧
      ((signedBe32 (blockAt data item.key) 508 = 2 ∧ ∃ inner,
          turn = .enter ⟨state.entries, item.key :: state.visited⟩ inner) ∨
        (signedBe32 (blockAt data item.key) 508 = -3 ∧ ∃ entry : DiskEntry,
          fileData data variant (blockAt data item.key) item.key = .ok entry.data ∧
          turn = .stay ⟨state.entries ++ [entry], item.key :: state.visited⟩)) := by
  unfold look at h
  split at h
  · cases h
  next hfresh =>
    obtain ⟨header, hheader, h⟩ := bind_eq_ok.1 h
    have hkey : header = blockAt data item.key := by
      unfold block at hheader
      split at hheader
      · cases hheader
      · exact (Except.ok.inj hheader).symm
    subst hkey
    split at h
    · cases h
    obtain ⟨name, -, h⟩ := bind_eq_ok.1 h
    split at h
    · cases h
    split at h
    · next hkind => exact ⟨hfresh, .inl ⟨hkind, _, (Except.ok.inj h).symm⟩⟩
    split at h
    · next hkind =>
        obtain ⟨content, hcontent, h⟩ := bind_eq_ok.1 h
        exact ⟨hfresh, .inr ⟨hkind, _, hcontent, (Except.ok.inj h).symm⟩⟩
    · cases h

lemma Listed.enter {state : WalkState} {key : ℕ} (h : Listed data variant state)
    (hfresh : key ∉ state.visited) (hkind : signedBe32 (blockAt data key) 508 ≠ -3) :
    Listed data variant ⟨state.entries, key :: state.visited⟩ where
  once := List.nodup_cons.2 ⟨hfresh, h.once⟩
  files := by
    rw [headersOf_cons, if_neg hkind, List.append_nil]
    exact h.files

lemma Listed.file {state : WalkState} {key : ℕ} {entry : DiskEntry}
    (h : Listed data variant state) (hfresh : key ∉ state.visited)
    (hkind : signedBe32 (blockAt data key) 508 = -3)
    (hentry : fileData data variant (blockAt data key) key = .ok entry.data) :
    Listed data variant ⟨state.entries ++ [entry], key :: state.visited⟩ where
  once := List.nodup_cons.2 ⟨hfresh, h.once⟩
  files := by
    rw [headersOf_cons, if_pos hkind]
    exact List.rel_append h.files (.cons hentry .nil)

/-- The walk from the root lists what it visits. -/
lemma listed_of_done (hroot : signedBe32 (blockAt data rootKey) 508 = 1) {frames : ℕ}
    {final : WalkState} (h : Done (look data variant) frames ⟨[], [rootKey]⟩
      (listing data [] (blockAt data rootKey)) final) : Listed data variant final := by
  refine h.invariant (I := Listed data variant) (fun {s s' item} hs hlook => ?_)
    (fun {s s' item inner} hs hlook => ?_) ⟨List.nodup_singleton _, ?_⟩
  · obtain ⟨hfresh, ⟨-, inner, hturn⟩ | ⟨hkind, entry, hentry, hturn⟩⟩ := look_cases hlook
    · cases hturn
    · cases hturn
      exact hs.file hfresh hkind hentry
  · obtain ⟨hfresh, ⟨hkind, inner, hturn⟩ | ⟨-, entry, -, hturn⟩⟩ := look_cases hlook
    · cases hturn
      exact hs.enter hfresh (by rw [hkind]; decide)
    · cases hturn
  · have hnone : headersOf data [rootKey] = [] := by
      rw [headersOf_cons, hroot]
      rfl
    rw [hnone]
    exact .nil

/-- The contents of the entries, and the places they are read from.  Those of an OFS volume are not
shared. -/
lemma holds_fileHeaders (hvariant : variantOf data = some variant) {frames : ℕ}
    {image : DiskImage} (h : parse frames data = .ok (some image)) :
    List.Forall₂ (Extent.Holds data)
        ((fileHeaders data variant frames).map (fileExtents data variant))
        (image.entries.map DiskEntry.data) ∧
      image.filesystem = .adf variant ∧
      (variant = .ofs →
        Extent.Unshared ((fileHeaders data variant frames).map (fileExtents data variant))) := by
  have hsize : data.length = standardSize := by
    unfold variantOf at hvariant
    split at hvariant
    · cases hvariant
    next hstandard => exact not_not.1 (not_or.1 hstandard).1
  rw [parse, hvariant] at h
  obtain ⟨root, hblock, h⟩ := bind_eq_ok.1 h
  obtain rfl : root = blockAt data rootKey :=
    (Except.ok.inj ((block_eq_ok (by decide)).symm.trans hblock)).symm
  split at h
  · cases h
  next hroot =>
    split at h
    · cases h
    obtain ⟨final, hwalk, h⟩ := bind_eq_ok.1 h
    obtain ⟨name, -, h⟩ := bind_eq_ok.1 h
    obtain rfl := Option.some.inj (Except.ok.inj h)
    have hlisted := listed_of_done (not_not.1 (not_or.1 hroot).2) (walk_eq_ok_iff.1 hwalk)
    rw [fileHeaders, hwalk]
    dsimp only
    refine ⟨?_, rfl, fun hofs => ?_⟩
    · rw [List.forall₂_map_left_iff, List.forall₂_map_right_iff]
      exact hlisted.files.imp fun key entry hentry => (holds_of_fileData hsize hentry).1
    · have hread : ∀ key ∈ headersOf data final.visited, ∃ content,
          fileData data variant (blockAt data key) key = .ok content :=
        ((List.forall₂_and_left _ _).1 (hlisted.files.imp fun _ _ hentry =>
          ⟨⟨_, hentry⟩, hentry⟩)).1
      have honce := List.nodup_reverse.2 hlisted.once
      refine List.pairwise_map.2 ((List.Nodup.filter _ honce).imp_of_mem
        fun {key key'} hkey hkey' hne extent hextent extent' hextent' => ?_)
      obtain ⟨content, hcontent⟩ := hread key hkey
      obtain ⟨content', hcontent'⟩ := hread key' hkey'
      obtain ⟨other, hother, rfl⟩ := (holds_of_fileData hsize hcontent).2 extent hextent
      obtain ⟨other', hother', rfl⟩ := (holds_of_fileData hsize hcontent').2 extent' hextent'
      -- The two blocks differ, since each names the header it belongs to.
      refine hother.apart hother' fun heq => hne ?_
      rw [← (hother.owned hofs).1, ← (hother'.owned hofs).1, heq]

end Adf

/-! ## Disk images -/

section Images

/-- The places that the contents of the entries are read from. -/
def handedOut (frames : ℕ) (data : Bytes) : List (List Extent) :=
  match Fat.volume data with
  | some vol => (Fat.fileRows data vol frames).map (Fat.fileExtents data vol)
  | none =>
      match Adf.variantOf data with
      | some variant => (Adf.fileHeaders data variant frames).map (Adf.fileExtents data variant)
      | none => []

variable {frames : ℕ} {data : Bytes} {image : DiskImage}

lemma holds_handedOut (h : parseDiskImage frames data = .ok (some image)) :
    List.Forall₂ (Extent.Holds data) (handedOut frames data) (image.entries.map DiskEntry.data) ∧
      (image.filesystem = .adf .ofs → Extent.Unshared (handedOut frames data)) := by
  obtain ⟨fat, hfat, h⟩ := bind_eq_ok.1 h
  rcases hvol : Fat.volume data with _ | vol
  · have hnone : fat = none := by
      rw [Fat.parse, hvol] at hfat
      exact (Except.ok.inj hfat).symm
    subst hnone
    rcases hvariant : Adf.variantOf data with _ | variant
    · rw [Adf.parse, hvariant] at h
      cases h
    · obtain ⟨hholds, hfilesystem, hofs⟩ := Adf.holds_fileHeaders hvariant h
      rw [handedOut, hvol, hvariant]
      refine ⟨hholds, fun h => hofs ?_⟩
      rw [hfilesystem] at h
      exact Filesystem.adf.inj h
  · rcases fat with _ | found
    · rw [Fat.parse, hvol] at hfat
      obtain ⟨_, -, hfat⟩ := bind_eq_ok.1 hfat
      cases hfat
    · obtain rfl := Option.some.inj (Except.ok.inj h)
      rw [handedOut, hvol]
      refine ⟨Fat.holds_fileRows hvol hfat, fun h => ?_⟩
      rw [Fat.parse, hvol] at hfat
      obtain ⟨_, -, hfat⟩ := bind_eq_ok.1 hfat
      obtain rfl := Option.some.inj (Except.ok.inj hfat)
      cases h

/-- Each content is read from clusters or blocks of the image, none of them twice, and is no longer
than the image.  Together they are no longer than the image if no two entries share places, as they
never do on an OFS volume. -/
theorem enumeration_bounded (h : parseDiskImage frames data = .ok (some image)) :
    List.Forall₂ (Extent.Holds data) (handedOut frames data) (image.entries.map DiskEntry.data) ∧
      (∀ entry ∈ image.entries, entry.data.length ≤ data.length) ∧
      (image.filesystem = .adf .ofs → Extent.Unshared (handedOut frames data)) ∧
      (Extent.Unshared (handedOut frames data) →
        (image.entries.map fun entry => entry.data.length).sum ≤ data.length) := by
  obtain ⟨hholds, hofs⟩ := holds_handedOut h
  refine ⟨hholds, fun entry hentry => ?_, hofs, fun hunshared => ?_⟩
  · have hlengths : ∀ content ∈ image.entries.map DiskEntry.data, content.length ≤ data.length :=
      ((List.forall₂_and_left _ _).1 (hholds.flip.imp fun _ _ hcontent =>
        ⟨hcontent.length_le, hcontent⟩)).1
    exact hlengths entry.data (List.mem_map_of_mem hentry)
  · have hsum := Extent.sum_length_le hholds hunshared
    rwa [List.map_map] at hsum

/-- The row of a file `A` that fills the only cluster. -/
def wholeRow : Bytes :=
  0x41 :: List.replicate 10 0x20 ++ [0x20] ++ List.replicate 14 0 ++ [2, 0, 0, 2, 0, 0]

/-- A volume of four sectors whose root directory has that row several times. -/
def wholeRows (count : ℕ) : Bytes :=
  Fat.oneCluster ++ (List.replicate count wholeRow).flatten ++
    List.replicate (512 - 32 * count) 0 ++ List.replicate 512 0x58

lemma exists_image_of_any {result : Except Exc (Option DiskImage)} {test : DiskImage → Bool}
    (h : result.toOption.join.any test) : ∃ image, result = .ok (some image) ∧ test image := by
  rcases result with _ | _ | image
  · cases h
  · cases h
  · exact ⟨image, rfl, h⟩

/-- Two files of one byte, each in a cluster of its own. -/
theorem two_files_bounded : ∃ image, parseDiskImage 1000 Fat.twoFiles = .ok (some image) ∧
    image.entries.length = 2 ∧ handedOut 1000 Fat.twoFiles = [[⟨1536, 512⟩], [⟨2048, 512⟩]] ∧
    (image.entries.map fun entry => entry.data.length).sum ≤ Fat.twoFiles.length := by
  have hhanded : handedOut 1000 Fat.twoFiles = [[⟨1536, 512⟩], [⟨2048, 512⟩]] := by decide +kernel
  have hreads : (parseDiskImage 1000 Fat.twoFiles).toOption.join.any (fun image =>
      decide (image.entries.length = 2)) := by decide +kernel
  obtain ⟨image, hparse, htwo⟩ := exists_image_of_any hreads
  refine ⟨image, hparse, of_decide_eq_true htwo, hhanded, (enumeration_bounded hparse).2.2.2 ?_⟩
  rw [hhanded]
  simp [Extent.Unshared, Extent.Apart]

/-- Five times the row, each with the whole cluster, in an image of four sectors. -/
theorem shared_cluster_multiplies :
    ¬∀ (frames : ℕ) (data : Bytes) (image : DiskImage),
      parseDiskImage frames data = .ok (some image) →
        (image.entries.map fun entry => entry.data.length).sum ≤ data.length := by
  intro h
  have hlong : (parseDiskImage 1000 (wholeRows 5)).toOption.join.any (fun image =>
      decide ((wholeRows 5).length < (image.entries.map fun entry => entry.data.length).sum)) := by
    decide +kernel
  obtain ⟨image, hparse, hlt⟩ := exists_image_of_any hlong
  exact absurd (h 1000 (wholeRows 5) image hparse) (Nat.not_le.2 (of_decide_eq_true hlt))

end Images

end AVBox
