import AVBox.Analyzers.CompoundFiles

/-!
# Reading a compound file back

What `_parse_cfb` returns for a file that is laid out as MS-CFB prescribes: the paths of its objects
(`assignTree_eq_ok`), the contents of its streams (`readStream_stored`), and both together in
`parse_laidOut`.
-/

namespace AVBox

namespace Cfb

open Binary Fallible

/-! ## Paths -/

namespace Objects

/-- The path that the parser builds up is the position in the tree. -/
lemma joinPath_joined {position : List PyStr} (h : ∀ name ∈ position, name ≠ []) (name : PyStr) :
    joinPath (joined position) name = joined (position ++ [name]) := by
  by_cases hroot : position = []
  · simp [hroot, joinPath, joined]
  · have hne : joined position ≠ [] := PyStr.intercalate_ne_nil _ hroot h
    rw [joinPath, if_neg hne, joined, joined, PyStr.intercalate_concat _ hroot, List.append_assoc]
    rfl

/-- The slots that have been seen after a visit. -/
def visited (seen : List ℕ) : Objects → List ℕ
  | none => seen
  | stream id _ _ left right => right.visited (left.visited (id :: seen))
  | storage id _ children left right =>
      right.visited (children.visited (left.visited (id :: seen)))

lemma mem_visited {objects : Objects} {seen : List ℕ} {id : ℕ} :
    id ∈ objects.visited seen ↔ id ∈ seen ∨ id ∈ objects.ids := by
  induction objects generalizing seen with
  | none => simp [visited, ids]
  | stream slot name content left right ihleft ihright =>
      simp only [visited, ids, ihleft, ihright, List.mem_cons, List.mem_append]
      tauto
  | storage slot name children left right ihchildren ihleft ihright =>
      simp only [visited, ids, ihchildren, ihleft, ihright, List.mem_cons, List.mem_append]
      tauto

/-- The slots of the objects are regular ones, all different, and none has been seen. -/
structure Fresh (objects : Objects) (seen : List ℕ) : Prop where
  nodup : objects.ids.Nodup
  regular : ∀ id ∈ objects.ids, id < mark
  new : ∀ id ∈ objects.ids, id ∉ seen

lemma Fresh.stream {id : ℕ} {name : PyStr} {content : Bytes} {left right : Objects}
    {seen : List ℕ} (h : Fresh (.stream id name content left right) seen) :
    id < mark ∧ id ∉ seen ∧ Fresh left (id :: seen) ∧
      Fresh right (left.visited (id :: seen)) := by
  obtain ⟨hnodup, hregular, hnew⟩ := h
  simp only [ids, List.nodup_append, List.nodup_cons, List.mem_cons, List.mem_append]
    at hnodup hregular hnew
  obtain ⟨hleft, ⟨hid, hright⟩, hapart⟩ := hnodup
  refine ⟨hregular id (.inr (.inl rfl)), hnew id (.inr (.inl rfl)),
    ⟨hleft, fun other hother => hregular other (.inl hother), fun other hother => ?_⟩,
    ⟨hright, fun other hother => hregular other (.inr (.inr hother)), fun other hother => ?_⟩⟩
  · rw [List.mem_cons, not_or]
    exact ⟨hapart other hother id (.inl rfl), hnew other (.inl hother)⟩
  · rw [mem_visited, List.mem_cons, not_or, not_or]
    exact ⟨⟨fun heq => hid (heq ▸ hother), hnew other (.inr (.inr hother))⟩,
      fun hmem => hapart other hmem other (.inr hother) rfl⟩

lemma Fresh.storage {id : ℕ} {name : PyStr} {children left right : Objects} {seen : List ℕ}
    (h : Fresh (.storage id name children left right) seen) :
    id < mark ∧ id ∉ seen ∧ Fresh left (id :: seen) ∧
      Fresh children (left.visited (id :: seen)) ∧
      Fresh right (children.visited (left.visited (id :: seen))) := by
  obtain ⟨hnodup, hregular, hnew⟩ := h
  simp only [ids, List.nodup_append, List.nodup_cons, List.mem_cons, List.mem_append, not_or]
    at hnodup hregular hnew
  obtain ⟨hleft, ⟨⟨hidchildren, hidright⟩, hchildren, hright, hbetween⟩, hapart⟩ := hnodup
  refine ⟨hregular id (.inr (.inl rfl)), hnew id (.inr (.inl rfl)),
    ⟨hleft, fun other hother => hregular other (.inl hother), fun other hother => ?_⟩,
    ⟨hchildren, fun other hother => hregular other (.inr (.inr (.inl hother))),
      fun other hother => ?_⟩,
    ⟨hright, fun other hother => hregular other (.inr (.inr (.inr hother))),
      fun other hother => ?_⟩⟩
  · rw [List.mem_cons, not_or]
    exact ⟨hapart other hother id (.inl rfl), hnew other (.inl hother)⟩
  · rw [mem_visited, List.mem_cons, not_or, not_or]
    exact ⟨⟨fun heq => hidchildren (heq ▸ hother), hnew other (.inr (.inr (.inl hother)))⟩,
      fun hmem => hapart other hmem other (.inr (.inl hother)) rfl⟩
  · rw [mem_visited, mem_visited, List.mem_cons]
    rintro (((rfl | hmem) | hmem) | hmem)
    · exact hidright hother
    · exact hnew other (.inr (.inr (.inr hother))) hmem
    · exact hapart other hmem other (.inr (.inr hother)) rfl
    · exact hbetween other hmem other hother rfl

/-- The paths of the objects, as a visit records them. -/
def paths (position : List PyStr) (objects : Objects) : List (ℕ × PyStr) :=
  ((objects.located position).map fun item => (item.id, item.path)).reverse

end Objects

section Paths

variable {image : Image}

lemma assignTree_first_none (frames : ℕ) (parent : PyStr) (tree : Tree) :
    assignTree (entriesOf image) (frames + 1) Objects.none.first parent tree = .ok tree := by
  rw [assignTree]
  cases (entriesOf image).find? fun entry => entry.entryId = Objects.none.first with
  | none => rfl
  | some entry => exact if_pos (.inl (by decide))

lemma assignTree_of_find {entries : List CfbEntry} {frames id : ℕ} {parent : PyStr} {tree : Tree}
    {entry : CfbEntry} (hfind : entries.find? (fun entry => entry.entryId = id) = some entry)
    (hregular : id < mark) (hnew : id ∉ tree.seen) :
    assignTree entries (frames + 1) id parent tree = (do
      let tree ← assignTree entries frames entry.leftSibling parent
        { tree with seen := id :: tree.seen }
      let path := joinPath parent entry.name
      let tree := { tree with paths := (id, path) :: tree.paths }
      let tree ← if entry.kind = 1 then assignTree entries frames entry.child path tree
        else pure tree
      assignTree entries frames entry.rightSibling parent tree) := by
  rw [assignTree, hfind]
  exact if_neg (not_or.2 ⟨Nat.not_le.2 hregular, hnew⟩)

/-- The visit of a tree succeeds exactly when its calls can be nested deeply enough, and it then
records the position of every object. -/
lemma assignTree_eq_ok (hlaid : LaidOut image) {objects : Objects} (h : image.Holds objects)
    {position : List PyStr} (hposition : ∀ name ∈ position, name ≠ []) {frames : ℕ} {tree : Tree}
    (hfresh : objects.Fresh tree.seen) {result : Tree} :
    assignTree (entriesOf image) frames objects.first (Objects.joined position) tree = .ok result ↔
      objects.height ≤ frames ∧
        result = ⟨objects.visited tree.seen, objects.paths position ++ tree.paths⟩ := by
  induction objects generalizing position frames tree result with
  | none =>
      cases frames with
      | zero => simp [assignTree, Objects.height]
      | succ frames =>
          rw [assignTree_first_none]
          refine ⟨fun hrun => ⟨Nat.le_add_left 1 frames, (Except.ok.inj hrun).symm⟩, ?_⟩
          rintro ⟨-, rfl⟩
          rfl
  | stream id name content left right ihleft ihright =>
      obtain ⟨hname, ⟨start, hslot, -⟩, hleft, hright⟩ := h
      have hentry := hslot.readEntry_eq hname (by decide) id
      rw [← find_entry hlaid] at hentry
      obtain ⟨hregular, hnew, hfreshleft, hfreshright⟩ := hfresh.stream
      have hrunleft := fun result frames => @ihleft hleft position hposition frames
        { tree with seen := id :: tree.seen } hfreshleft result
      have hrunright := fun result frames => @ihright hright position hposition frames
        ⟨left.visited (id :: tree.seen), (id, joinPath (Objects.joined position) name) ::
          (left.paths position ++ tree.paths)⟩ hfreshright result
      have hresult : right.paths position ++ (id, joinPath (Objects.joined position) name) ::
          (left.paths position ++ tree.paths) =
            (Objects.stream id name content left right).paths position ++ tree.paths := by
        simp [Objects.paths, Objects.located, Objects.joinPath_joined hposition]
      cases frames with
      | zero => simp [assignTree, Objects.height]
      | succ frames =>
          rw [Objects.first, assignTree_of_find hentry hregular hnew, Objects.height,
            Nat.succ_le_succ_iff, Nat.max_le, ← hresult]
          constructor
          · intro hrun
            obtain ⟨after, hfirst, hrest⟩ := bind_eq_ok.1 hrun
            obtain ⟨hheight, rfl⟩ := (hrunleft _ _).1 hfirst
            obtain ⟨hheight', rfl⟩ := (hrunright _ _).1 hrest
            exact ⟨⟨hheight, hheight'⟩, rfl⟩
          · rintro ⟨⟨hheight, hheight'⟩, rfl⟩
            exact bind_eq_ok.2 ⟨_, (hrunleft _ _).2 ⟨hheight, rfl⟩,
              (hrunright _ _).2 ⟨hheight', rfl⟩⟩
  | storage id name children left right ihchildren ihleft ihright =>
      obtain ⟨hname, ⟨start, size, hslot⟩, hchildren, hleft, hright⟩ := h
      have hentry := hslot.readEntry_eq hname (by decide) id
      rw [← find_entry hlaid] at hentry
      obtain ⟨hregular, hnew, hfreshleft, hfreshchildren, hfreshright⟩ := hfresh.storage
      have hpath := Objects.joinPath_joined hposition name
      have hdeeper : ∀ other ∈ position ++ [name], other ≠ [] :=
        List.forall_mem_append.2 ⟨hposition, List.forall_mem_singleton.2 hname.nonempty⟩
      have hrunleft := fun result frames => @ihleft hleft position hposition frames
        { tree with seen := id :: tree.seen } hfreshleft result
      have hrunchildren := fun result frames => @ihchildren hchildren (position ++ [name]) hdeeper
        frames ⟨left.visited (id :: tree.seen), (id, Objects.joined (position ++ [name])) ::
          (left.paths position ++ tree.paths)⟩ hfreshchildren result
      have hrunright := fun result frames => @ihright hright position hposition frames
        ⟨children.visited (left.visited (id :: tree.seen)),
          children.paths (position ++ [name]) ++ (id, Objects.joined (position ++ [name])) ::
            (left.paths position ++ tree.paths)⟩ hfreshright result
      have hresult : right.paths position ++ (children.paths (position ++ [name]) ++
          (id, Objects.joined (position ++ [name])) :: (left.paths position ++ tree.paths)) =
            (Objects.storage id name children left right).paths position ++ tree.paths := by
        simp [Objects.paths, Objects.located]
      cases frames with
      | zero => simp [assignTree, Objects.height]
      | succ frames =>
          rw [Objects.first, assignTree_of_find hentry hregular hnew, Objects.height,
            Nat.succ_le_succ_iff, Nat.max_le, Nat.max_le, ← hresult]
          simp only [hpath, if_true]
          constructor
          · intro hrun
            obtain ⟨after, hfirst, hrest⟩ := bind_eq_ok.1 hrun
            obtain ⟨hheight, rfl⟩ := (hrunleft _ _).1 hfirst
            obtain ⟨after', hsecond, hlast⟩ := bind_eq_ok.1 hrest
            obtain ⟨hheight', rfl⟩ := (hrunchildren _ _).1 hsecond
            obtain ⟨hheight'', rfl⟩ := (hrunright _ _).1 hlast
            exact ⟨⟨hheight, hheight', hheight''⟩, rfl⟩
          · rintro ⟨⟨hheight, hheight', hheight''⟩, rfl⟩
            exact bind_eq_ok.2 ⟨_, (hrunleft _ _).2 ⟨hheight, rfl⟩, bind_eq_ok.2
              ⟨_, (hrunchildren _ _).2 ⟨hheight', rfl⟩, (hrunright _ _).2 ⟨hheight'', rfl⟩⟩⟩

/-- The path the parser gives to an entry. -/
def pathOf (image : Image) (id : ℕ) : PyStr :=
  let paths : List (ℕ × PyStr) := image.objects.paths [] ++ [(0, image.rootName)]
  ((paths.find? fun item => item.1 = id).map (·.2)).getD []

/-- The entries, with their paths. -/
def locatedEntries (image : Image) : List CfbEntry :=
  (entriesOf image).map fun entry => { entry with path := pathOf image entry.entryId }

lemma assignPaths_eq_ok (h : LaidOut image) {frames : ℕ} {result : List CfbEntry} :
    assignPaths frames (entriesOf image) = .ok result ↔
      image.objects.height ≤ frames ∧ result = locatedEntries image := by
  have htree := fun tree => @assignTree_eq_ok image h image.objects h.objects [] (by simp) frames
    ⟨[], [(0, image.rootName)]⟩ ⟨h.distinct, h.regular, by simp⟩ tree
  rw [assignPaths, rootOf_eq h]
  simp only [bind_eq_ok]
  constructor
  · rintro ⟨tree, hassign, hresult⟩
    obtain ⟨hheight, rfl⟩ := (htree tree).1 hassign
    exact ⟨hheight, (Except.ok.inj hresult).symm⟩
  · rintro ⟨hheight, rfl⟩
    exact ⟨_, (htree _).2 ⟨hheight, rfl⟩, rfl⟩

/-- It is the position of the object in the tree. -/
lemma pathOf_located (h : LaidOut image) {item : Located}
    (hitem : item ∈ image.objects.located []) : pathOf image item.id = item.path := by
  have hmem : (item.id, item.path) ∈ image.objects.paths [] ++ [(0, image.rootName)] :=
    List.mem_append_left _ (List.mem_reverse.2
      (List.mem_map_of_mem (f := fun item : Located => (item.id, item.path)) hitem))
  have hnodup : ((image.objects.paths [] ++ [(0, image.rootName)]).map Prod.fst).Nodup := by
    have hids : (image.objects.paths []).map Prod.fst = image.objects.ids.reverse := by
      rw [Objects.paths, List.map_reverse, List.map_map, ← map_id_located image.objects []]
      rfl
    rw [List.map_append, hids]
    refine List.nodup_append.2 ⟨List.nodup_reverse.2 h.distinct, List.nodup_singleton _, ?_⟩
    rintro id hid other hother rfl
    obtain rfl := List.mem_singleton.1 hother
    exact h.rootApart (List.mem_reverse.1 hid)
  unfold pathOf
  simp only []
  cases hfind : (image.objects.paths [] ++ [(0, image.rootName)]).find?
      fun other : ℕ × PyStr => decide (other.1 = item.id) with
  | none => exact absurd (decide_eq_true rfl) (List.find?_eq_none.1 hfind _ hmem)
  | some found =>
      have hid : found.1 = item.id := by simpa using List.find?_some hfind
      have hsame := List.inj_on_of_nodup_map hnodup (List.mem_of_find?_eq_some hfind) hmem hid
      rw [hsame]
      rfl

end Paths

/-! ## Streams -/

section Streams

variable {image : Image} {limits : DocumentLimits}

lemma pieces_pos {size : ℕ} (hsize : 0 < size) {content : Bytes} (h : content ≠ []) :
    0 < Image.pieces size content := by
  have hlength := List.length_pos_iff.2 h
  exact Nat.div_pos (by omega) hsize

/-- A chain with a sector in it starts at a sector. -/
lemma start_lt_mark {table sids : List ℕ} {start : ℕ} (h : Chained table start sids)
    (hne : 0 < sids.length) : start < mark ∧ table ≠ [] := by
  cases h with
  | stop _ => exact absurd hne (Nat.lt_irrefl 0)
  | next hleads _ =>
      refine ⟨hleads.1, ?_⟩
      rintro rfl
      exact absurd hleads.2 (by simp)

lemma sectorSize_pos (h : LaidOut image) : 0 < image.sectorSize := by
  rcases h.sectorSize_cases with ⟨-, h⟩ | ⟨-, h⟩ <;> omega

lemma readMinifat_eq (h : LaidOut image) (hmajor : image.major = 3) :
    readMinifat image.data (LaidOut.headerOf image) image.fat = .ok image.minifat := by
  obtain ⟨hchain, hinside⟩ := h.minifatChain
  unfold readMinifat
  by_cases hnone : image.minifatSids = []
  · have hcond : ¬((LaidOut.headerOf image).minifatCount ≠ 0 ∧
        (LaidOut.headerOf image).firstMinifat < mark) := by simp [LaidOut.headerOf, hnone]
    rw [if_neg hcond, ← h.minifat, hnone]
    simp [table, words32, Image.contents]
  · have hpos := List.length_pos_iff.2 hnone
    have hcond : (LaidOut.headerOf image).minifatCount ≠ 0 ∧
        (LaidOut.headerOf image).firstMinifat < mark :=
      ⟨Nat.ne_of_gt hpos, (start_lt_mark hchain hpos).1⟩
    rw [if_pos hcond, ← h.minifat]
    exact bind_eq_ok.2 ⟨_, chain_of_linked hchain (Nat.le_refl _),
      bind_eq_ok.2 ⟨_, LaidOut.sectors_three hmajor hinside, rfl⟩⟩

/-- A content in sectors of its own is read if the chain is within the limit. -/
lemma readChain_eq_ok (hmajor : image.major = 3) {start maximum : ℕ} {content : Bytes}
    (h : image.InSectors start content) {result : Bytes} :
    (do
      let sids ← chain start image.fat maximum
      return (← sectors image.data (LaidOut.headerOf image) sids).take content.length) =
        (.ok result : Except Exc Bytes) ↔
      Image.pieces image.sectorSize content ≤ maximum ∧ result = content := by
  obtain ⟨sids, ⟨hchain, hinside⟩, hlength, hcontent⟩ := h
  rw [← hlength]
  constructor
  · intro hrun
    obtain ⟨read, hread, hrest⟩ := bind_eq_ok.1 hrun
    obtain ⟨hle, rfl⟩ := length_le_of_chain hchain hread
    rw [LaidOut.sectors_three hmajor hinside] at hrest
    exact ⟨hle, (Except.ok.inj hrest).symm.trans hcontent⟩
  · rintro ⟨hle, rfl⟩
    refine bind_eq_ok.2 ⟨sids, chain_of_linked hchain hle, ?_⟩
    rw [LaidOut.sectors_three hmajor hinside]
    exact congrArg Except.ok hcontent

lemma readMinistream_eq_ok (h : LaidOut image) (hmajor : image.major = 3) {maximum : ℕ}
    {result : Bytes} :
    readMinistream image.data (LaidOut.headerOf image) image.fat maximum (some (rootEntry image)) =
        .ok result ↔
      Image.pieces image.sectorSize image.ministream ≤ maximum ∧ result = image.ministream := by
  change (if (rootEntry image).size ≠ 0 ∧ (rootEntry image).start < mark then _ else _) = _ ↔ _
  by_cases hnone : image.ministream = []
  · have hzero : Image.pieces image.sectorSize image.ministream = 0 := by
      rw [Image.pieces, hnone, List.length_nil]
      exact Nat.div_eq_of_lt (by have := sectorSize_pos h; omega)
    have hcond : ¬((rootEntry image).size ≠ 0 ∧ (rootEntry image).start < mark) := by
      simp [rootEntry, hnone]
    rw [if_neg hcond, hzero, hnone]
    exact ⟨fun hrun => ⟨Nat.zero_le _, (Except.ok.inj hrun).symm⟩, fun hrun => by rw [hrun.2]⟩
  · have hstored := h.ministream hnone
    have hpos := List.length_pos_iff.2 hnone
    obtain ⟨sids, ⟨hchain, -⟩, hlength, -⟩ := id hstored
    have hstart := (start_lt_mark hchain
      (by rw [hlength]; exact pieces_pos (sectorSize_pos h) hnone)).1
    have hcond : (rootEntry image).size ≠ 0 ∧ (rootEntry image).start < mark :=
      ⟨Nat.ne_of_gt hpos, hstart⟩
    rw [if_pos hcond]
    exact readChain_eq_ok hmajor hstored

/-- Where the parser looks for the streams. -/
def storageOf (image : Image) : Storage :=
  ⟨image.data, LaidOut.headerOf image, image.fat, image.minifat, image.ministream⟩

/-- The content of a stream that the limits allow is read. -/
lemma readStream_stored (h : LaidOut image) (hmajor : image.major = 3) {entry : CfbEntry}
    {content : Bytes} (hkind : entry.kind = 2) (hsize : entry.size = content.length)
    (hstored : image.Stored entry.start content)
    (hbytes : content.length ≤ limits.maxDocumentParserBytes)
    (hpieces : Image.pieces (if content.length < 0x1000 then 64 else image.sectorSize) content ≤
      limits.maxDocumentComponents) :
    readStream limits (storageOf image) entry = .ok content := by
  unfold readStream
  by_cases hempty : content = []
  · rw [if_pos (.inr (by rw [hsize, hempty]; rfl)), hempty]
  have hpos := List.length_pos_iff.2 hempty
  have hstored := hstored hempty
  rw [if_neg (by omega), if_neg (by omega)]
  by_cases hsmall : content.length < 0x1000
  · rw [if_pos hsmall] at hstored hpieces
    obtain ⟨sids, hchain, hlength, hcontent⟩ := hstored
    have hminifat := (start_lt_mark hchain
      (by rw [hlength]; exact pieces_pos (by decide) hempty)).2
    have hministream : image.ministream ≠ [] := by
      intro hnone
      have hslices : ∀ piece ∈ sids.map image.miniSectorAt, piece = [] := by
        intro piece hpiece
        obtain ⟨sid, -, rfl⟩ := List.mem_map.1 hpiece
        simp [Image.miniSectorAt, slice, hnone]
      rw [List.flatten_eq_nil_iff.2 hslices, List.take_nil] at hcontent
      exact hempty hcontent.symm
    have hcond : entry.size < (storageOf image).header.miniCutoff ∧ (storageOf image).minifat ≠ [] ∧
        (storageOf image).ministream ≠ [] :=
      ⟨hsize ▸ hsmall, hminifat, hministream⟩
    rw [if_pos hcond, hsize]
    exact bind_eq_ok.2 ⟨sids, chain_of_linked hchain (by rw [hlength]; exact hpieces),
      congrArg Except.ok hcontent⟩
  · rw [if_neg hsmall] at hstored hpieces
    obtain ⟨sids, ⟨hchain, -⟩, hlength, -⟩ := id hstored
    have hstart := (start_lt_mark hchain
      (by rw [hlength]; exact pieces_pos (sectorSize_pos h) hempty)).1
    have hcond : ¬(entry.size < (storageOf image).header.miniCutoff ∧
        (storageOf image).minifat ≠ [] ∧ (storageOf image).ministream ≠ []) :=
      fun hcond => hsmall (hsize ▸ hcond.1)
    rw [if_neg hcond, if_pos hstart, hsize]
    exact (readChain_eq_ok hmajor hstored).2 ⟨hpieces, rfl⟩

end Streams

/-! ## The whole file -/

section Whole

variable {image : Image} {limits : DocumentLimits} {frames : ℕ}

/-- The entry with its content. -/
def readEntryData (limits : DocumentLimits) (image : Image) (entry : CfbEntry) :
    Except Exc CfbEntry := do
  return { entry with data := ← readStream limits (storageOf image) entry }

/-- A file of version 3 is read exactly when its parts fit. -/
lemma parse_eq_ok (h : LaidOut image) (hmajor : image.major = 3) {entries : List CfbEntry} :
    parse limits frames image.data = .ok entries ↔ Fits limits frames image ∧
      (locatedEntries image).mapM (readEntryData limits image) = .ok entries := by
  have hfat : sectors image.data (LaidOut.headerOf image) (LaidOut.headerOf image).fatSectors =
      .ok (image.contents image.fatSids) :=
    LaidOut.sectors_three hmajor fun sid hsid => (h.fatInside sid hsid).2
  have hdirectory := LaidOut.sectors_three hmajor h.directory.2
  have hroot : rootOf (locatedEntries image) =
      some { rootEntry image with path := pathOf image 0 } := by
    obtain ⟨rest, hrest⟩ := entriesOf_eq_cons h
    rw [rootOf, locatedEntries, hrest]
    rfl
  unfold parse
  rw [LaidOut.parseHeader_eq h]
  constructor
  · intro hrun
    obtain ⟨header, hheader, hrun⟩ := bind_eq_ok.1 hrun
    obtain rfl := Except.ok.inj hheader
    obtain ⟨fat, hfat', hrun⟩ := bind_eq_ok.1 hrun
    obtain rfl := Except.ok.inj (hfat.symm.trans hfat')
    rw [h.fat] at hrun
    obtain ⟨sids, hsids, hrun⟩ := bind_eq_ok.1 hrun
    obtain ⟨hdirectoryfits, rfl⟩ := length_le_of_chain h.directory.1 hsids
    obtain ⟨directory, hdirectory', hrun⟩ := bind_eq_ok.1 hrun
    obtain rfl := Except.ok.inj (hdirectory.symm.trans hdirectory')
    obtain ⟨found, hfound, hrun⟩ := bind_eq_ok.1 hrun
    obtain ⟨hentriesfit, rfl⟩ := (readEntries_eq_ok h).1 hfound
    obtain ⟨assigned, hassigned, hrun⟩ := bind_eq_ok.1 hrun
    obtain ⟨htreefits, rfl⟩ := (assignPaths_eq_ok h).1 hassigned
    obtain ⟨minifat, hminifat, hrun⟩ := bind_eq_ok.1 hrun
    obtain rfl := Except.ok.inj ((readMinifat_eq h hmajor).symm.trans hminifat)
    obtain ⟨ministream, hministream, hrun⟩ := bind_eq_ok.1 hrun
    rw [hroot] at hministream
    obtain ⟨hministreamfits, rfl⟩ := (readMinistream_eq_ok h hmajor).1 hministream
    exact ⟨⟨hdirectoryfits, hentriesfit, hministreamfits, htreefits⟩, hrun⟩
  · rintro ⟨⟨hdirectoryfits, hentriesfit, hministreamfits, htreefits⟩, hrun⟩
    refine bind_eq_ok.2 ⟨_, rfl, bind_eq_ok.2 ⟨_, hfat, ?_⟩⟩
    rw [h.fat]
    refine bind_eq_ok.2 ⟨_, chain_of_linked h.directory.1 hdirectoryfits,
      bind_eq_ok.2 ⟨_, hdirectory, ?_⟩⟩
    refine bind_eq_ok.2 ⟨_, (readEntries_eq_ok h).2 ⟨hentriesfit, rfl⟩,
      bind_eq_ok.2 ⟨_, (assignPaths_eq_ok h).2 ⟨htreefits, rfl⟩, ?_⟩⟩
    refine bind_eq_ok.2 ⟨_, readMinifat_eq h hmajor, bind_eq_ok.2 ⟨image.ministream, ?_, hrun⟩⟩
    rw [hroot]
    exact (readMinistream_eq_ok h hmajor).2 ⟨hministreamfits, rfl⟩

/-- What the parser reads of an entry. -/
lemma readEntryData_eq (h : LaidOut image) (hmajor : image.major = 3)
    (hlimits : StreamsWithin limits image) {entry : CfbEntry} (hentry : entry ∈ entriesOf image) :
    ∃ content, readEntryData limits image { entry with path := pathOf image entry.entryId } =
        .ok { entry with path := pathOf image entry.entryId, data := content } ∧
      (entry.kind = 2 →
        ⟨entry.entryId, pathOf image entry.entryId, some content⟩ ∈ image.objects.located []) := by
  rcases entry_cases h hentry [] with rfl | ⟨item, hitem, hid, hslot, hkind, hcontent⟩
  · exact ⟨[], rfl, fun hkind => absurd hkind (show 5 ≠ 2 by decide)⟩
  cases hstream : item.content with
  | none =>
      have hkind : entry.kind = 1 := by simpa [hstream] using hkind
      have hread : readStream limits (storageOf image)
          { entry with path := pathOf image entry.entryId } = .ok [] :=
        if_pos (.inl (by simp [hkind]))
      refine ⟨[], ?_, fun htwo => absurd (hkind.symm.trans htwo) (by decide)⟩
      exact bind_eq_ok.2 ⟨[], hread, rfl⟩
  | some content =>
      have hkind : entry.kind = 2 := by simpa [hstream] using hkind
      obtain ⟨hsize, hstored⟩ := hcontent content hstream
      obtain ⟨hbytes, hpieces⟩ := hlimits item hitem content hstream
      have hread : readStream limits (storageOf image)
          { entry with path := pathOf image entry.entryId } = .ok content :=
        readStream_stored h hmajor hkind hsize hstored hbytes hpieces
      refine ⟨content, bind_eq_ok.2 ⟨content, hread, rfl⟩, fun _ => ?_⟩
      rw [← hid, pathOf_located h hitem, ← hstream]
      exact hitem

/-- A file of version 3 makes the round trip exactly when its parts fit. -/
lemma roundTrip_iff (h : LaidOut image) (hmajor : image.major = 3)
    (hlimits : StreamsWithin limits image) :
    RoundTrip limits frames image ↔ Fits limits frames image := by
  constructor
  · rintro ⟨entries, hparse, -⟩
    exact ((parse_eq_ok h hmajor).1 hparse).1
  · intro hfits
    have hall : ∀ entry ∈ locatedEntries image,
        ∃ value, readEntryData limits image entry = .ok value := by
      intro entry hentry
      obtain ⟨raw, hraw, rfl⟩ := List.mem_map.1 hentry
      obtain ⟨content, hread, -⟩ := readEntryData_eq h hmajor hlimits hraw
      exact ⟨_, hread⟩
    obtain ⟨entries, hentries⟩ := exists_mapM_eq_ok hall
    refine ⟨entries, (parse_eq_ok h hmajor).2 ⟨hfits, hentries⟩, fun entry hentry hkind => ?_,
      fun item hitem hstream => ?_⟩
    · obtain ⟨source, hsource, hread⟩ := exists_of_mem_mapM hentries hentry
      obtain ⟨raw, hraw, rfl⟩ := List.mem_map.1 hsource
      obtain ⟨content, hread', hmem⟩ := readEntryData_eq h hmajor hlimits hraw
      obtain rfl := Except.ok.inj (hread'.symm.trans hread)
      exact hmem hkind
    · obtain ⟨raw, hdescribes⟩ := exists_describes h.objects hitem
      have hid := entryId_of_readEntry hdescribes.slot
      have hraw : raw ∈ entriesOf image := (mem_entriesOf h).2 (hid ▸ hdescribes.slot)
      have hkind : raw.kind = 2 := by simpa [hstream] using hdescribes.kind
      obtain ⟨content, hread, hmem⟩ := readEntryData_eq h hmajor hlimits hraw
      obtain ⟨entry, hentry, hread'⟩ := exists_value_of_mem hentries
        (List.mem_map_of_mem (f := fun entry : CfbEntry =>
          { entry with path := pathOf image entry.entryId }) hraw)
      obtain rfl := Except.ok.inj (hread.symm.trans hread')
      refine ⟨_, hentry, hkind, ?_⟩
      have hnodup : ((image.objects.located []).map (·.id)).Nodup := by
        rw [map_id_located]
        exact h.distinct
      exact List.inj_on_of_nodup_map hnodup hitem (hmem hkind) hid.symm

/-! ## Files of version 4 -/

/-- The sectors of version 4 are read 3584 bytes too early: the end of the sector before, and the
beginning of the sector. -/
lemma sector_four (hmajor : image.major = 4) {sid : ℕ}
    (hsid : sid < image.sectorCount) : sector image.data (LaidOut.headerOf image) sid =
      .ok (slice image.data (sid * 4096 + 512) ((sid + 1) * 4096) ++
        (image.sectorAt sid).take 512) := by
  have hsize : image.sectorSize = 4096 := by simp [Image.sectorSize, hmajor]
  have hstart : 512 + sid * 4096 = sid * 4096 + 512 := Nat.add_comm _ _
  have hsplit := slice_split image.data
    (show sid * 4096 + 512 ≤ (sid + 1) * 4096 by omega)
    (show (sid + 1) * 4096 ≤ sid * 4096 + 512 + 4096 by omega)
  have htake := take_slice image.data
    (show (sid + 1) * 4096 + 512 ≤ (sid + 1) * 4096 + 4096 by omega)
  have hstop : sid * 4096 + 512 + 4096 = (sid + 1) * 4096 + 512 := by omega
  rw [LaidOut.sector_eq hsid, Image.sectorAt, hsize, hstart, hsplit, htake, hstop]

lemma table_getElem {data : Bytes} {index : ℕ} (h : 4 * index + 4 ≤ data.length) :
    (table data)[index]? = some (le32 data (4 * index)) := by
  rw [table, words32, List.getElem?_map, List.getElem?_range (by omega), Option.map_some]

/-- A table of zeros has no chain that ends. -/
lemma chain_zeros {entries result : List ℕ} {start maximum : ℕ} (hstart : start < mark)
    (hentry : entries[start]? = some 0) (hzero : entries[0]? = some 0) :
    chain start entries maximum ≠ .ok result := by
  have hmark : 0 < mark := by decide
  have hloop : ∀ remaining seen result, chainFrom entries remaining seen 0 ≠ .ok result := by
    intro remaining
    induction remaining with
    | zero => exact fun seen result => chainFrom_zero hmark
    | succ remaining ih =>
        intro seen result hrun
        by_cases hseen : 0 ∈ seen
        · rw [chainFrom.eq_def] at hrun
          simp only [ge_iff_le, Nat.not_le.2 hmark, if_false, hzero, hseen, if_true] at hrun
          cases hrun
        · rw [chainFrom_succ hmark hzero hseen] at hrun
          obtain ⟨rest, hrest, -⟩ := bind_eq_ok.1 hrun
          exact ih _ rest hrest
  intro hrun
  rw [chain] at hrun
  cases maximum with
  | zero => exact chainFrom_zero hstart hrun
  | succ maximum =>
      rw [chainFrom_succ hstart hentry (List.not_mem_nil)] at hrun
      obtain ⟨rest, hrest, -⟩ := bind_eq_ok.1 hrun
      exact hloop _ _ rest hrest

/-- A table in the first sector of version 4 is read as zeros, and no file is read with it. -/
lemma not_roundTrip_four (h : LaidOut image) (hmajor : image.major = 4)
    (hfirst : image.fatSids.head? = some 0)
    (hheader : slice image.data 512 4096 = List.replicate 3584 0)
    (hdirectory : le32 image.data 48 < 896) : ¬RoundTrip limits frames image := by
  rintro ⟨entries, hparse, -⟩
  obtain ⟨rest, hsids⟩ : ∃ rest, image.fatSids = 0 :: rest := by
    cases hcase : image.fatSids with
    | nil => simp [hcase] at hfirst
    | cons sid rest => exact ⟨rest, by rw [hcase] at hfirst; rw [Option.some.inj hfirst]⟩
  have hinside : 0 < image.sectorCount := (h.fatInside 0 (by simp [hsids])).2
  unfold parse at hparse
  rw [LaidOut.parseHeader_eq h] at hparse
  obtain ⟨header, hheader', hparse⟩ := bind_eq_ok.1 hparse
  obtain rfl := Except.ok.inj hheader'
  obtain ⟨bytes, hbytes, hparse⟩ := bind_eq_ok.1 hparse
  obtain ⟨sids, hsids', -⟩ := bind_eq_ok.1 hparse
  -- The table begins with 3584 zeros of the header.
  obtain ⟨sectors, hsectors, hflatten⟩ := bind_eq_ok.1 hbytes
  rw [show (LaidOut.headerOf image).fatSectors = 0 :: rest from hsids, List.mapM_cons,
    sector_four hmajor hinside] at hsectors
  obtain ⟨first, hzero, hsectors⟩ := bind_eq_ok.1 hsectors
  obtain ⟨others, -, hcons⟩ := bind_eq_ok.1 hsectors
  obtain rfl := Except.ok.inj hcons
  obtain rfl := Except.ok.inj hzero
  obtain rfl := Except.ok.inj hflatten
  rw [List.flatten_cons, show 0 * 4096 + 512 = 512 from rfl, show (0 + 1) * 4096 = 4096 from rfl,
    hheader, List.append_assoc] at hsids'
  have hentry : ∀ index < 896, ∀ tail,
      (table (List.replicate 3584 0 ++ tail))[index]? = some 0 := by
    intro index hindex tail
    have hlength : 4 * index + 4 ≤ (List.replicate 3584 (0 : UInt8)).length := by
      rw [List.length_replicate]
      omega
    rw [table_getElem (by rw [List.length_append]; omega), le32, slice_append_left hlength,
      slice_replicate (by rw [List.length_replicate] at hlength; omega), Nat.add_sub_cancel_left]
    rfl
  exact chain_zeros (Nat.lt_trans hdirectory (by decide)) (hentry _ hdirectory _)
    (hentry 0 (by decide) _) hsids'

/-- A file of version 3 makes the round trip exactly when its parts fit.  In version 4 the parser
reads every sector from the wrong place, and no file whose allocation table begins in the first
sector, behind a header padded with zeros, makes it. -/
theorem parse_laidOut (h : LaidOut image) (hlimits : StreamsWithin limits image) :
    (image.major = 3 → (RoundTrip limits frames image ↔ Fits limits frames image)) ∧
      (image.major = 4 →
        (∀ sid < image.sectorCount, sector image.data (LaidOut.headerOf image) sid =
          .ok (slice image.data (sid * 4096 + 512) ((sid + 1) * 4096) ++
            (image.sectorAt sid).take 512)) ∧
        (image.fatSids.head? = some 0 → slice image.data 512 4096 = List.replicate 3584 0 →
          le32 image.data 48 < 896 → ¬RoundTrip limits frames image)) :=
  ⟨fun hmajor => roundTrip_iff h hmajor hlimits,
    fun hmajor => ⟨fun _ => sector_four hmajor, not_roundTrip_four h hmajor⟩⟩

end Whole

/-! ### A file with one stream -/

/-- A little-endian word. -/
def word32 (value : ℕ) : Bytes := twoBytes (value % 0x10000) ++ twoBytes (value / 0x10000)

/-- The header of a file of five sectors: the table, the directory, the mini table, and the mini
stream. -/
def sampleHeader (major : ℕ) : Bytes :=
  [0xD0, 0xCF, 0x11, 0xE0, 0xA1, 0xB1, 0x1A, 0xE1] ++ List.replicate 16 0 ++ twoBytes 0x3E ++
    twoBytes major ++ [0xFE, 0xFF] ++ twoBytes (if major = 3 then 9 else 12) ++ twoBytes 6 ++
    List.replicate 10 0 ++ word32 1 ++ word32 1 ++ word32 0 ++ word32 0x1000 ++ word32 2 ++
    word32 1 ++ word32 endOfChain ++ word32 0 ++ word32 0 ++ List.replicate 432 0xFF

/-- A directory entry without siblings. -/
def sampleSlot (name : PyStr) (kind : UInt8) (child start size : ℕ) : Bytes :=
  let raw := encodeUtf16 name
  raw ++ List.replicate (64 - raw.length) 0 ++ twoBytes (raw.length + 2) ++ [kind, 1] ++
    word32 0xFFFFFFFF ++ word32 0xFFFFFFFF ++ word32 child ++ List.replicate 36 0 ++
    word32 start ++ word32 size ++ word32 0

/-- A content that is filled up. -/
def padded (size : ℕ) (fill : UInt8) (content : Bytes) : Bytes :=
  content ++ List.replicate (size - content.length) fill

def sampleRootName : PyStr := PyStr.ofString "Root Entry"

def sampleName : PyStr := PyStr.ofString "note"

def sampleContent : Bytes := ascii "hello"

/-- What the header and the sectors hold. -/
def sampleParts (major : ℕ) : ℕ → UInt8 × Bytes
  | 0 => (0, sampleHeader major)
  | 1 => (0xFF, word32 0xFFFFFFFD ++ word32 endOfChain ++ word32 endOfChain ++ word32 endOfChain)
  | 2 => (0, sampleSlot sampleRootName 5 1 3 64 ++ sampleSlot sampleName 2 0xFFFFFFFF 0 5)
  | 3 => (0xFF, word32 endOfChain)
  | _ => (0, sampleContent)

def sampleSize (major : ℕ) : ℕ := if major = 3 then 512 else 4096

def sampleBlock (major number : ℕ) : Bytes :=
  padded (sampleSize major) (sampleParts major number).1 (sampleParts major number).2

/-- The file, in both versions of the format. -/
def sampleImage (major : ℕ) : Image where
  major := major
  data := (List.range 5).flatMap (sampleBlock major)
  fatSids := [0]
  fat := table (sampleBlock major 1)
  directorySids := [1]
  minifatSids := [2]
  minifat := table (sampleBlock major 3)
  rootName := sampleRootName
  rootStart := 3
  ministream := padded 64 0 sampleContent
  objects := .stream 1 sampleName sampleContent .none .none

section Sample

variable {major : ℕ}

lemma length_sampleParts (hmajor : major = 3 ∨ major = 4) (number : ℕ) :
    (sampleParts major number).2.length ≤ sampleSize major := by
  have hsmall : (sampleParts major number).2.length ≤ 512 := by
    rcases hmajor with rfl | rfl <;> rcases number with _ | _ | _ | _ | number
    all_goals first | decide +kernel | exact show sampleContent.length ≤ 512 by decide
  rw [sampleSize]
  split <;> omega

lemma length_sampleBlock (hmajor : major = 3 ∨ major = 4) (number : ℕ) :
    (sampleBlock major number).length = sampleSize major := by
  have hparts := length_sampleParts hmajor number
  rw [sampleBlock, padded, List.length_append, List.length_replicate]
  omega

lemma sample_sectorSize (major : ℕ) : (sampleImage major).sectorSize = sampleSize major := by
  unfold Image.sectorSize sampleSize
  rfl

lemma sample_data (major : ℕ) :
    (sampleImage major).data = (List.range 5).flatMap (sampleBlock major) := by
  simp only [sampleImage]

lemma sample_sectorAt (hmajor : major = 3 ∨ major = 4) {sid : ℕ} (hsid : sid < 4) :
    (sampleImage major).sectorAt sid = sampleBlock major (sid + 1) := by
  rw [Image.sectorAt, sample_sectorSize, sample_data,
    block_flatMap_range (length_sampleBlock hmajor) (by omega)]

/-- The parts are where the blocks begin. -/
lemma sampleBlock_eq (major number : ℕ) : sampleBlock major number = (sampleParts major number).2 ++
    List.replicate (sampleSize major - (sampleParts major number).2.length)
      (sampleParts major number).1 := by
  rw [sampleBlock, padded]

lemma slice_sampleBlock {number start stop : ℕ}
    (h : stop ≤ (sampleParts major number).2.length) :
    slice (sampleBlock major number) start stop =
      slice (sampleParts major number).2 start stop := by
  rw [sampleBlock_eq, slice_append_left h]

lemma length_sampleHeader (hmajor : major = 3 ∨ major = 4) : (sampleHeader major).length = 512 := by
  rcases hmajor with rfl | rfl <;> decide +kernel

lemma slice_sample_data (hmajor : major = 3 ∨ major = 4) {start stop : ℕ} (h : stop ≤ 512) :
    slice (sampleImage major).data start stop = slice (sampleHeader major) start stop := by
  have hheader : stop ≤ (sampleParts major 0).2.length :=
    h.trans (Nat.le_of_eq (length_sampleHeader hmajor).symm)
  have hblock : stop ≤ (sampleBlock major 0).length := by
    have hparts := length_sampleParts hmajor 0
    rw [length_sampleBlock hmajor]
    omega
  rw [sample_data, List.range_succ_eq_map, List.flatMap_cons, slice_append_left hblock,
    slice_sampleBlock hheader]
  rfl

lemma sample_contents (hmajor : major = 3 ∨ major = 4) {sid : ℕ} (hsid : sid < 4) :
    (sampleImage major).contents [sid] = sampleBlock major (sid + 1) := by
  rw [Image.contents, List.map_singleton, List.flatten_singleton, sample_sectorAt hmajor hsid]

/-- The words of a table that stand in the part itself. -/
lemma sample_table (hmajor : major = 3 ∨ major = 4) {number index : ℕ}
    (h : 4 * index + 4 ≤ (sampleParts major number).2.length) :
    (table (sampleBlock major number))[index]? =
      some (le32 (sampleParts major number).2 (4 * index)) := by
  have hparts := length_sampleParts hmajor number
  rw [table_getElem (by rw [length_sampleBlock hmajor]; omega), le32, slice_sampleBlock h, le32]

/-- A chain of one sector. -/
lemma chained_singleton {entries : List ℕ} {sid : ℕ} (hsid : sid < mark)
    (hentry : entries[sid]? = some endOfChain) : Chained entries sid [sid] :=
  .next ⟨hsid, hentry⟩ (.stop rfl)

lemma sample_fat (hmajor : major = 3 ∨ major = 4) {sid : ℕ} (h : 1 ≤ sid) (h' : sid < 4) :
    Chained (sampleImage major).fat sid [sid] := by
  refine chained_singleton (Nat.lt_trans h' (by decide)) ?_
  have hlength : 4 * sid + 4 ≤ (sampleParts major 1).2.length := by
    have hwords : (sampleParts major 1).2.length = 16 := rfl
    omega
  rw [show (sampleImage major).fat = table (sampleBlock major 1) by simp only [sampleImage],
    sample_table hmajor hlength]
  have hwords : ∀ sid < 4, 1 ≤ sid → le32 (word32 0xFFFFFFFD ++ word32 endOfChain ++
      word32 endOfChain ++ word32 endOfChain) (4 * sid) = endOfChain := by decide
  exact congrArg some (hwords sid h' h)

lemma length_sample_data (hmajor : major = 3 ∨ major = 4) :
    (sampleImage major).data.length = 5 * sampleSize major := by
  rw [sample_data, length_flatMap_range (length_sampleBlock hmajor)]

lemma sampleSize_pos (major : ℕ) : 512 ≤ sampleSize major := by
  rw [sampleSize]
  split <;> decide

lemma sample_sectorCount (hmajor : major = 3 ∨ major = 4) :
    (sampleImage major).sectorCount = 4 := by
  have hpos := sampleSize_pos major
  rw [Image.sectorCount, sample_sectorSize, length_sample_data hmajor,
    Nat.mul_div_cancel _ (by omega)]

lemma sample_hasChain (hmajor : major = 3 ∨ major = 4) {sid : ℕ} (h : 1 ≤ sid) (h' : sid < 4) :
    (sampleImage major).HasChain sid [sid] :=
  ⟨sample_fat hmajor h h', fun other hother => by
    rw [List.mem_singleton.1 hother, sample_sectorCount hmajor]
    exact h'⟩

lemma sample_directory (hmajor : major = 3 ∨ major = 4) :
    (sampleImage major).directory = sampleBlock major 2 :=
  sample_contents hmajor (show 1 < 4 by decide)

lemma sample_slotAt (hmajor : major = 3 ∨ major = 4) {id : ℕ}
    (h : id * 128 + 128 ≤ (sampleParts major 2).2.length) : (sampleImage major).slotAt id =
      slice (sampleSlot sampleRootName 5 1 3 64 ++ sampleSlot sampleName 2 0xFFFFFFFF 0 5)
        (id * 128) (id * 128 + 128) := by
  rw [Image.slotAt, sample_directory hmajor, slice_sampleBlock h]
  rfl

lemma u8_of_zeros {data : Bytes} (h : ∀ byte ∈ data, byte = 0) (offset : ℕ) :
    u8 data offset = 0 := by
  rw [u8, List.getD_eq_getElem?_getD]
  cases hbyte : data[offset]? with
  | none => rfl
  | some byte =>
      rw [h byte (List.mem_of_getElem? hbyte)]
      rfl

/-- Behind the two entries there are zeros. -/
lemma sample_unused (hmajor : major = 3 ∨ major = 4) {id : ℕ} (h : 2 ≤ id) (offset : ℕ) :
    u8 ((sampleImage major).slotAt id) offset = 0 := by
  have hlength : (sampleParts major 2).2.length = 256 := by
    rcases hmajor with rfl | rfl <;> decide +kernel
  rw [Image.slotAt, sample_directory hmajor, sampleBlock_eq, slice_append_right (by omega)]
  refine u8_of_zeros (fun byte hbyte => ?_) offset
  exact List.eq_of_mem_replicate (List.mem_of_mem_drop (List.mem_of_mem_take hbyte))

/-- The mini stream is in its sector, and the content of the stream is in the mini stream. -/
lemma sample_ministream (hmajor : major = 3 ∨ major = 4) :
    (sampleImage major).InSectors 3 (padded 64 0 sampleContent) := by
  have hsize := sampleSize_pos major
  refine ⟨[3], sample_hasChain hmajor (by decide) (by decide), ?_, ?_⟩
  · have hlength : (padded 64 0 sampleContent).length = 64 := by decide
    rw [Image.pieces, hlength, sample_sectorSize, List.length_singleton, Nat.div_eq_of_lt_le] <;>
      omega
  · have hlength : sampleContent.length = 5 := by decide
    have hblock : sampleBlock major 4 =
        sampleContent ++ List.replicate (sampleSize major - sampleContent.length) 0 :=
      sampleBlock_eq major 4
    rw [sample_contents hmajor (by decide), hblock, padded, hlength, List.length_append,
      List.length_replicate, hlength, List.take_append, hlength,
      List.take_of_length_le (by omega), List.take_replicate]
    congr 2
    omega

lemma sample_stored (hmajor : major = 3 ∨ major = 4) :
    (sampleImage major).Stored 0 sampleContent := by
  intro _
  rw [if_pos (by decide)]
  have hentry : (table (sampleBlock major 3))[0]? = some endOfChain :=
    sample_table hmajor (show 4 * 0 + 4 ≤ (word32 endOfChain).length by decide)
  exact ⟨[0], chained_singleton (by decide) hentry, by decide,
    show ([0].map fun sid => slice (padded 64 0 sampleContent) (sid * 64)
      ((sid + 1) * 64)).flatten.take sampleContent.length = sampleContent by decide⟩

lemma sample_firstDirectory (hmajor : major = 3 ∨ major = 4) :
    le32 (sampleImage major).data 48 = 1 := by
  rw [le32, slice_sample_data hmajor (by decide)]
  rcases hmajor with rfl | rfl <;> decide +kernel

/-- The file is laid out as the format prescribes. -/
lemma sample_laidOut (hmajor : major = 3 ∨ major = 4) : LaidOut (sampleImage major) := by
  have hcount := sample_sectorCount hmajor
  have hpos := sampleSize_pos major
  have hdata := length_sample_data hmajor
  have hlength : (sampleParts major 2).2.length = 256 := by
    rcases hmajor with rfl | rfl <;> decide +kernel
  have hfield := @slice_sample_data major hmajor
  have hdirectory := sample_firstDirectory hmajor
  have hminifat : le32 (sampleImage major).data 60 = 2 := by
    rw [le32, hfield (by decide)]
    rcases hmajor with rfl | rfl <;> decide +kernel
  refine
    { version := hmajor
      wholeSectors := ⟨5, by rw [hdata, sample_sectorSize, Nat.mul_comm]⟩
      header := by rw [hdata, sample_sectorSize]; omega
      majorField := ?_
      shiftField := ?_
      miniShiftField := ?_
      fatCount := show 1 ≤ 109 by decide
      fatCountField := ?_
      cutoffField := ?_
      difat := ?_
      fatInside := ?_
      fat := congrArg table (sample_contents hmajor (show 0 < 4 by decide))
      directory := by rw [hdirectory]; exact sample_hasChain hmajor (by decide) (by decide)
      minifatChain := by rw [hminifat]; exact sample_hasChain hmajor (by decide) (by decide)
      minifatCount := ?_
      minifat := congrArg table (sample_contents hmajor (show 2 < 4 by decide))
      rootName := (⟨by decide, by decide, by decide⟩ : LegalName sampleRootName)
      root := ?_
      ministream := fun _ => sample_ministream hmajor
      objects := ?_
      distinct := List.nodup_singleton 1
      regular := fun id hid => by rw [List.mem_singleton.1 hid]; decide
      rootApart := show 0 ∉ [1] by decide
      unused := fun id hzero hid => ?_ }
  · rw [le16, hfield (by decide)]
    rcases hmajor with rfl | rfl <;> decide +kernel
  · rw [le16, hfield (by decide)]
    rcases hmajor with rfl | rfl <;> decide +kernel
  · rw [le16, hfield (by decide)]
    rcases hmajor with rfl | rfl <;> decide +kernel
  · rw [le32, hfield (by decide)]
    rcases hmajor with rfl | rfl <;> decide +kernel
  · rw [le32, hfield (by decide)]
    rcases hmajor with rfl | rfl <;> decide +kernel
  · intro index hindex
    have hall : ∀ index < 109, leNat (slice (sampleHeader major) (76 + 4 * index)
        (76 + 4 * index + 4)) = [0].getD index freeSector := by
      rcases hmajor with rfl | rfl <;> decide +kernel
    rw [le32, hfield (by omega)]
    exact hall index hindex
  · intro sid hsid
    rw [List.mem_singleton.1 hsid, hcount]
    decide
  · rw [le32, hfield (by decide)]
    rcases hmajor with rfl | rfl <;> decide +kernel
  · rw [sample_slotAt hmajor (by omega)]
    exact (⟨by decide +kernel, by decide +kernel, by decide +kernel, by decide +kernel,
      by decide +kernel, by decide +kernel, by decide +kernel, by decide +kernel⟩ :
        Image.Slot (slice (sampleSlot sampleRootName 5 1 3 64 ++
          sampleSlot sampleName 2 0xFFFFFFFF 0 5) (0 * 128) (0 * 128 + 128)) sampleRootName 5
          0xFFFFFFFF 0xFFFFFFFF 1 3 64)
  · refine ⟨⟨by decide, by decide, by decide⟩, ⟨0, ?_, sample_stored hmajor⟩, trivial, trivial⟩
    rw [sample_slotAt hmajor (by omega)]
    exact (⟨by decide +kernel, by decide +kernel, by decide +kernel, by decide +kernel,
      by decide +kernel, by decide +kernel, by decide +kernel, by decide +kernel⟩ :
        Image.Slot (slice (sampleSlot sampleRootName 5 1 3 64 ++
          sampleSlot sampleName 2 0xFFFFFFFF 0 5) (1 * 128) (1 * 128 + 128)) sampleName 2
          0xFFFFFFFF 0xFFFFFFFF 0xFFFFFFFF 0 5)
  · refine sample_unused hmajor ?_ 66
    have hid : id ≠ 1 := fun heq => hid (by rw [heq]; exact List.mem_singleton_self 1)
    omega

lemma sample_within (major : ℕ) :
    StreamsWithin .default (sampleImage major) := by
  intro item hitem content hcontent
  obtain rfl := List.mem_singleton.1
    (show item ∈ [⟨1, Objects.joined [sampleName], some sampleContent⟩] from hitem)
  obtain rfl := Option.some.inj hcontent
  rw [if_pos (by decide)]
  exact ⟨by decide, by decide⟩

/-- In version 3 it is read as it was written. -/
theorem sample_three : RoundTrip .default 5 (sampleImage 3) := by
  refine ((parse_laidOut (sample_laidOut (.inl rfl)) (sample_within 3)).1 rfl).2 ?_
  exact ⟨show 1 ≤ 10000 by decide, show 2 ≤ 10000 by decide, by decide, show 2 ≤ 5 by decide⟩

/-- In version 4 it is not. -/
theorem sample_four : LaidOut (sampleImage 4) ∧ StreamsWithin .default (sampleImage 4) ∧
    ∀ frames, ¬RoundTrip .default frames (sampleImage 4) := by
  have hlaid := sample_laidOut (.inr rfl : 4 = 3 ∨ 4 = 4)
  have hheader : slice (sampleImage 4).data 512 4096 = List.replicate 3584 0 := by
    have hlength := length_sampleBlock (.inr rfl : 4 = 3 ∨ 4 = 4) 0
    have hblock : sampleBlock 4 0 = sampleHeader 4 ++ List.replicate (4096 - 512) 0 := by
      have hpart := length_sampleHeader (.inr rfl : 4 = 3 ∨ 4 = 4)
      rw [sampleBlock_eq, sampleParts, hpart]
      rfl
    rw [sample_data, List.range_succ_eq_map, List.flatMap_cons,
      slice_append_left (by rw [hlength]; decide), hblock,
      slice_append_right (by rw [length_sampleHeader (.inr rfl)]),
      length_sampleHeader (.inr rfl), slice_replicate (by decide)]
  refine ⟨hlaid, sample_within 4, fun frames => ?_⟩
  refine not_roundTrip_four hlaid rfl rfl hheader ?_
  rw [sample_firstDirectory (.inr rfl)]
  decide

end Sample

end Cfb

end AVBox
