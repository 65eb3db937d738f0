import AVBox.Analyzers.AdfVolumes
import Mathlib.Algebra.BigOperators.Group.List.Basic

/-!
# Reading an Amiga volume back

What `_parse_adf` returns for an image that is laid out as AmigaDOS prescribes: the walk through
the drawers (`walk_entries`), and the image (`volume_reads_back_iff`).
-/

namespace AVBox

namespace Adf

open Binary Fallible Walk

namespace Entries

/-- The entries that the walk has come to after these. -/
def visited (seen : List ℕ) : Entries → List ℕ
  | none => seen
  | file key _ _ _ _ rest => rest.visited (key :: seen)
  | drawer key _ inner rest => rest.visited (inner.visited (key :: seen))

lemma mem_visited {entries : Entries} {seen : List ℕ} {key : ℕ}
    (h : key ∈ entries.visited seen) : key ∈ seen ∨ key ∈ entries.used := by
  induction entries generalizing seen with
  | none => exact .inl h
  | file key' name content dataBlocks extensions rest ih =>
      have h := ih h
      simp only [used, List.mem_cons, List.mem_append] at h ⊢
      tauto
  | drawer key' name inner rest ihinner ihrest =>
      rcases ihrest h with h | h
      · have h := ihinner h
        simp only [used, List.mem_cons, List.mem_append] at h ⊢
        tauto
      · simp only [used, List.mem_cons, List.mem_append]
        tauto

lemma keys_sublist (entries : Entries) : entries.keys.Sublist entries.used := by
  induction entries with
  | none => exact List.Sublist.refl _
  | file key name content dataBlocks extensions rest ih =>
      exact (ih.trans (List.sublist_append_right _ _)).cons_cons key
  | drawer key name inner rest ihinner ihrest =>
      exact (ihrest.trans (List.sublist_append_right _ _)).cons_cons key

lemma height_pos (entries : Entries) : 0 < entries.height := by
  induction entries with
  | none => exact Nat.one_pos
  | file key name content dataBlocks extensions rest ih => exact ih
  | drawer key name inner rest ihinner ihrest => exact lt_max_of_lt_right ihrest

/-- The path that the parser builds up is the position in the tree. -/
lemma under_joined {position : List PyStr} (h : ∀ name ∈ position, name ≠ []) (name : PyStr) :
    PyStr.under (joined position) name = joined (position ++ [name]) := by
  by_cases hroot : position = []
  · simp [hroot, PyStr.under, joined]
  · have hne : joined position ≠ [] := PyStr.intercalate_ne_nil _ hroot h
    rw [PyStr.under, if_neg hne, joined, joined, PyStr.intercalate_concat _ hroot]

/-- The blocks of the entries are blocks of the image, all different, and the walk has come to none
of them. -/
structure Fresh (entries : Entries) (seen : List ℕ) : Prop where
  inside : ∀ key ∈ entries.used, 2 ≤ key ∧ key < blocks
  nodup : entries.used.Nodup
  new : ∀ key ∈ entries.used, key ∉ seen

lemma Fresh.file {key : ℕ} {name : PyStr} {content : Bytes} {dataBlocks extensions : List ℕ}
    {rest : Entries} {seen : List ℕ}
    (h : Fresh (.file key name content dataBlocks extensions rest) seen) :
    (∀ other ∈ key :: dataBlocks, 2 ≤ other ∧ other < blocks) ∧ dataBlocks.Nodup ∧ key ∉ seen ∧
      Fresh rest (key :: seen) := by
  obtain ⟨hkey, hnodup⟩ := List.nodup_cons.1 h.nodup
  obtain ⟨hin, hinside⟩ := List.forall_mem_cons.1 h.inside
  obtain ⟨hfresh, hnew⟩ := List.forall_mem_cons.1 h.new
  rw [List.forall_mem_append, List.forall_mem_append] at hinside
  rw [List.forall_mem_append] at hnew
  refine ⟨List.forall_mem_cons.2 ⟨hin, hinside.1.1⟩,
    (List.Nodup.of_append_left hnodup).of_append_left, hfresh, hinside.2,
    List.Nodup.of_append_right hnodup, fun other hother => ?_⟩
  exact List.not_mem_cons_of_ne_of_not_mem
    (fun heq => hkey (heq ▸ List.mem_append_right _ hother)) (hnew.2 other hother)

lemma Fresh.drawer {key : ℕ} {name : PyStr} {inner rest : Entries} {seen : List ℕ}
    (h : Fresh (.drawer key name inner rest) seen) :
    (2 ≤ key ∧ key < blocks) ∧ key ∉ seen ∧ Fresh inner (key :: seen) ∧
      Fresh rest (inner.visited (key :: seen)) := by
  obtain ⟨hkey, hnodup⟩ := List.nodup_cons.1 h.nodup
  obtain ⟨hin, hinside⟩ := List.forall_mem_cons.1 h.inside
  obtain ⟨hfresh, hnew⟩ := List.forall_mem_cons.1 h.new
  obtain ⟨hnodupInner, hnodupRest, hapart⟩ := List.nodup_append.1 hnodup
  rw [List.forall_mem_append] at hinside hnew
  refine ⟨hin, hfresh, ⟨hinside.1, hnodupInner, fun other hother => ?_⟩,
    ⟨hinside.2, hnodupRest, fun other hother hvisited => ?_⟩⟩
  · exact List.not_mem_cons_of_ne_of_not_mem
      (fun heq => hkey (heq ▸ List.mem_append_left _ hother)) (hnew.1 other hother)
  · rcases mem_visited hvisited with hmem | hmem
    · rcases List.mem_cons.1 hmem with rfl | hmem
      · exact hkey (List.mem_append_right _ hother)
      · exact hnew.2 other hother hmem
    · exact hapart other hmem other hother rfl

end Entries

/-! ## Walking the drawers -/

section Walking

variable {data : Bytes} {variant : AdfVariant}

/-- The entry that a file is appended as. -/
def record (entries : List DiskEntry) (file : PyStr × Bytes) : List DiskEntry :=
  entries ++ [⟨file.1, file.2, entries.length⟩]

lemma map_foldl_record (entries : List DiskEntry) (files : List (PyStr × Bytes)) :
    (files.foldl record entries).map (fun entry => (entry.path, entry.data)) =
      entries.map (fun entry => (entry.path, entry.data)) ++ files := by
  induction files generalizing entries with
  | nil => simp
  | cons file files ih =>
      rw [List.foldl_cons, ih, record, List.map_append]
      simp

/-- What the walk does with an entry whose header block is sound. -/
lemma look_eq {state : WalkState} {key : ℕ} {head name : PyStr} {kind : ℤ}
    (hsize : data.length = standardSize) (hkey : 2 ≤ key ∧ key < blocks)
    (hnew : key ∉ state.visited) (h : Header (blockAt data key) kind name)
    (hname : LegalName name) :
    look data variant state ⟨key, head⟩ =
      if kind = 2 then
        .ok (.enter ⟨state.entries, key :: state.visited⟩
          (listing data (PyStr.under head name) (blockAt data key)))
      else if kind = -3 then
        fileData data variant (blockAt data key) key >>= fun content =>
          .ok (.stay ⟨record state.entries (PyStr.under head name, content),
            key :: state.visited⟩)
      else .error (.diskImage "unsupported ADF entry type") := by
  have hsound : ¬(be32 (blockAt data key) 0 ≠ 2 ∨ blockChecksum (blockAt data key) = false) :=
    not_or.2 ⟨not_not.2 h.type, by rw [h.checksum]; decide⟩
  have hread := h.bstr_eq_ok (length_blockAt hsize hkey.2) hname.short hname.latin
  unfold look
  rw [if_neg hnew, block_eq_ok hkey]
  simp only [bind, Except.bind]
  rw [if_neg hsound]
  simp only [hread, h.kind]
  exact if_neg hname.safe

/-- The entries of a directory as the walk takes them. -/
def items (position : List PyStr) (entries : Entries) : List Item :=
  entries.keys.map fun key => ⟨key, Entries.joined position⟩

lemma listing_eq {raw : Bytes} {entries : Entries} {seen : List ℕ}
    (h : HasTable data raw entries.keys) (hfresh : entries.Fresh seen) (position : List PyStr) :
    listing data (Entries.joined position) raw = items position entries := by
  have hsub := entries.keys_sublist
  rw [listing, keys_of_hasTable h (fun key hkey => hfresh.inside key (hsub.subset hkey))
    (hfresh.nodup.sublist hsub)]
  rfl

/-- The walk of a tree succeeds exactly when its calls can be nested deeply enough and no file has
more blocks than its header has places for, and it then finds every file. -/
lemma walk_entries (hsize : data.length = standardSize) {entries : Entries}
    (h : Holds data variant entries) {position : List PyStr}
    (hposition : ∀ name ∈ position, name ≠ []) {frames : ℕ} {state : WalkState}
    (hfresh : entries.Fresh state.visited) {final : WalkState} :
    walk Exc.tooDeep (look data variant) frames state (items position entries) = .ok final ↔
      entries.height ≤ frames ∧
        (∀ file ∈ entries.files position, file.2.length ≤ 72 * dataSize variant) ∧
        final = ⟨(entries.files position).foldl record state.entries,
          entries.visited state.visited⟩ := by
  induction entries generalizing position frames state final with
  | none =>
      cases frames with
      | zero => simp [walk, Entries.height]
      | succ frames =>
          rw [items, Entries.keys, List.map_nil, walk_nil]
          constructor
          · intro hrun
            obtain rfl := Except.ok.inj hrun
            exact ⟨Nat.le_add_left 1 frames, by simp [Entries.files], rfl⟩
          · rintro ⟨-, -, rfl⟩
            rfl
  | file key name content dataBlocks extensions rest ih =>
      obtain ⟨hname, hfile, hrest⟩ := h
      obtain ⟨hinside, hnodup, hnew, hfresh⟩ := hfresh.file
      obtain ⟨hkey, hinside⟩ := List.forall_mem_cons.1 hinside
      have hitems : items position (.file key name content dataBlocks extensions rest) =
          ⟨key, Entries.joined position⟩ :: items position rest := rfl
      have hfiles : (Entries.file key name content dataBlocks extensions rest).files position =
          (Entries.joined (position ++ [name]), content) :: rest.files position := rfl
      have hlook := @look_eq data variant state key (Entries.joined position) name (-3) hsize hkey
        hnew hfile.header hname
      rw [if_neg (by decide), if_pos rfl, Entries.under_joined hposition] at hlook
      cases frames with
      | zero =>
          refine iff_of_false (fun hrun => by cases hrun) fun hfits => ?_
          exact absurd hfits.1 (Nat.not_le.2 rest.height_pos)
      | succ frames =>
          rw [hitems, hfiles, List.forall_mem_cons, List.foldl_cons]
          by_cases hsmall : content.length ≤ 72 * dataSize variant
          · rw [hfile.fileData_eq_ok hinside hnodup hsmall] at hlook
            rw [walk_cons_stay Exc.tooDeep hlook, ih hrest hposition hfresh]
            simp only [hsmall, true_and]
            rfl
          · have hcontent := hfile.fileData_ne_ok (Nat.not_le.1 hsmall)
            cases hresult : fileData data variant (blockAt data key) key with
            | ok result => exact absurd hresult (hcontent result)
            | error e =>
                rw [hresult] at hlook
                rw [walk_cons_error Exc.tooDeep hlook]
                exact iff_of_false (fun hrun => by cases hrun) fun hfits => hsmall hfits.2.1.1
  | drawer key name inner rest ihinner ihrest =>
      obtain ⟨hname, hheader, htable, hinner, hrest⟩ := h
      obtain ⟨hkey, hnew, hfreshInner, hfreshRest⟩ := hfresh.drawer
      have hitems : items position (.drawer key name inner rest) =
          ⟨key, Entries.joined position⟩ :: items position rest := rfl
      have hfiles : (Entries.drawer key name inner rest).files position =
          inner.files (position ++ [name]) ++ rest.files position := rfl
      have hlook := @look_eq data variant state key (Entries.joined position) name 2 hsize hkey
        hnew hheader hname
      rw [if_pos rfl, Entries.under_joined hposition, listing_eq htable hfreshInner] at hlook
      have hdeeper : ∀ other ∈ position ++ [name], other ≠ [] :=
        List.forall_mem_append.2 ⟨hposition, List.forall_mem_singleton.2 hname.nonempty⟩
      cases frames with
      | zero =>
          refine iff_of_false (fun hrun => by cases hrun) fun hfits => ?_
          exact absurd hfits.1 (Nat.not_le.2 (Entries.height_pos _))
      | succ frames =>
          rw [hitems, hfiles, List.forall_mem_append, List.foldl_append, Entries.height,
            Nat.max_le, Nat.succ_le_succ_iff, walk_cons_enter Exc.tooDeep hlook, bind_eq_ok]
          constructor
          · rintro ⟨between, hwalk, hwalk'⟩
            obtain ⟨hheight, hsmall, rfl⟩ := (ihinner hinner hdeeper hfreshInner).1 hwalk
            obtain ⟨hheight', hsmall', rfl⟩ := (ihrest hrest hposition hfreshRest).1 hwalk'
            exact ⟨⟨hheight, hheight'⟩, ⟨hsmall, hsmall'⟩, rfl⟩
          · rintro ⟨⟨hheight, hheight'⟩, ⟨hsmall, hsmall'⟩, rfl⟩
            exact ⟨_, (ihinner hinner hdeeper hfreshInner).2 ⟨hheight, hsmall, rfl⟩,
              (ihrest hrest hposition hfreshRest).2 ⟨hheight', hsmall', rfl⟩⟩

end Walking

/-! ## The image -/

section Image

variable {vol : Volume}

lemma variantOf_eq (h : LaidOut vol) : variantOf vol.data = some vol.variant := by
  have htype := h.typeByte
  have hstandard : ¬(vol.data.length ≠ standardSize ∨ vol.data.take 3 ≠ ascii "DOS") :=
    not_or.2 ⟨not_not.2 h.size, not_not.2 h.dosType⟩
  rw [variantOf, if_neg hstandard, htype]
  cases vol.variant <;> rfl

/-- The image of the volume. -/
def imageOf (vol : Volume) : DiskImage where
  format := "amiga-adf"
  filesystem := .adf vol.variant
  label := if vol.label = [] then none else some vol.label
  entries := (vol.entries.files []).foldl record []

/-- The image is read exactly when the walk succeeds. -/
lemma parse_eq_ok (h : LaidOut vol) {frames : ℕ} {result : Option DiskImage} :
    parse frames vol.data = .ok result ↔
      (vol.entries.height ≤ frames ∧
        ∀ file ∈ vol.entries.files [], file.2.length ≤ 72 * dataSize vol.variant) ∧
        result = some (imageOf vol) := by
  have hroot : 2 ≤ rootKey ∧ rootKey < blocks := by decide
  obtain ⟨happart, hnodup⟩ := List.nodup_cons.1 h.distinct
  have hfresh : vol.entries.Fresh [rootKey] :=
    ⟨h.inside, hnodup, fun key hkey hmem => happart (List.mem_singleton.1 hmem ▸ hkey)⟩
  have hwalk := fun final => @walk_entries vol.data vol.variant h.size vol.entries h.entries []
    (by simp) frames ⟨[], [rootKey]⟩ hfresh final
  have hlisting : listing vol.data [] (blockAt vol.data rootKey) = items [] vol.entries :=
    listing_eq h.table hfresh []
  have hlabel := h.root.bstr_eq_ok (length_blockAt h.size hroot.2) h.label.1 h.label.2
  have hvolume : ¬(be32 (blockAt vol.data rootKey) 0 ≠ 2 ∨
      signedBe32 (blockAt vol.data rootKey) 508 ≠ 1) :=
    not_or.2 ⟨not_not.2 h.root.type, not_not.2 h.root.kind⟩
  have hsound : blockChecksum (blockAt vol.data rootKey) ≠ false := by
    rw [h.root.checksum]
    decide
  rw [parse, variantOf_eq h]
  simp only [block_eq_ok hroot, bind, Except.bind]
  rw [if_neg hvolume, if_neg hsound, hlisting]
  cases hrun : walk Exc.tooDeep (look vol.data vol.variant) frames ⟨[], [rootKey]⟩
      (items [] vol.entries) with
  | error e =>
      refine iff_of_false (fun hparse => by cases hparse) fun hfits => ?_
      have hok := (hwalk _).2 ⟨hfits.1.1, hfits.1.2, rfl⟩
      cases hrun.symm.trans hok
  | ok final =>
      obtain ⟨hheight, hsmall, rfl⟩ := (hwalk final).1 hrun
      simp only [hlabel]
      constructor
      · intro hparse
        exact ⟨⟨hheight, hsmall⟩, (Except.ok.inj hparse).symm⟩
      · rintro ⟨-, rfl⟩
        rfl

/-- A boot block that says where the root block is does not pass for one of FAT. -/
lemma not_fat_of_rootPointer {data : Bytes} (h : be32 data 8 = rootKey) :
    Fat.volume data = none := by
  unfold Fat.volume
  by_cases hshort : data.length < 512 ∨ slice data 510 512 ≠ [0x55, 0xAA]
  · rw [if_pos hshort]
  rw [if_neg hshort]
  obtain ⟨byte, rest, hbyte⟩ : ∃ byte rest, data.drop 11 = byte :: rest := by
    refine List.exists_cons_of_ne_nil fun hnil => ?_
    have hlength := List.drop_eq_nil_iff.1 hnil
    omega
  -- The low byte of the root pointer is the low byte of the sector size.
  have hpointer : be32 data 8 % 256 = byte.toNat := by
    have hsplit : slice data 8 12 = slice data 8 11 ++ [byte] := by
      rw [slice_split data (show 8 ≤ 11 by decide) (show 11 ≤ 12 by decide)]
      simp only [slice, hbyte]
      rfl
    have hlimit := byte.toNat_lt
    rw [be32, hsplit, beNat, List.foldl_append, List.foldl_cons, List.foldl_nil]
    omega
  have hsector : le16 data 11 % 256 = byte.toNat := by
    have hlimit := byte.toNat_lt
    rw [le16, slice, hbyte, List.take_succ_cons, leNat_cons]
    omega
  rw [h] at hpointer
  have hincoherent : ¬(Fat.Volume.ofBoot data).Coherent data.length := by
    rintro ⟨hbps, -⟩
    have hbps : le16 data 11 ∈ [512, 1024, 2048, 4096] := hbps
    rw [rootKey] at hpointer
    simp only [List.mem_cons, List.not_mem_nil, or_false] at hbps
    omega
  exact if_neg hincoherent

/-- The volume can be read as it is. -/
structure Fits (frames : ℕ) (vol : Volume) : Prop where
  notFat : Fat.volume vol.data = none
  nesting : vol.entries.height ≤ frames
  small : ∀ file ∈ vol.entries.files [], file.2.length ≤ 72 * dataSize vol.variant

lemma parseDiskImage_of_not_fat {data : Bytes} (h : Fat.volume data = none) (frames : ℕ) :
    parseDiskImage frames data = parse frames data := by
  simp only [parseDiskImage, Fat.parse, h]
  rfl

lemma fits_of_roundTrip (h : LaidOut vol) {frames : ℕ} (hreads : RoundTrip frames vol) :
    Fits frames vol := by
  obtain ⟨image, hparse, hfilesystem, -⟩ := hreads
  cases hfat : Fat.volume vol.data with
  | some other =>
      simp only [parseDiskImage, Fat.parse, hfat] at hparse
      obtain ⟨found, hfound, hparse⟩ := bind_eq_ok.1 hparse
      obtain ⟨entries, -, hfound⟩ := bind_eq_ok.1 hfound
      obtain rfl := Except.ok.inj hfound
      obtain rfl := Option.some.inj (Except.ok.inj hparse)
      cases hfilesystem
  | none =>
      rw [parseDiskImage_of_not_fat hfat] at hparse
      obtain ⟨⟨hnesting, hsmall⟩, -⟩ := (parse_eq_ok h).1 hparse
      exact ⟨hfat, hnesting, hsmall⟩

lemma roundTrip_of_fits (h : LaidOut vol) {frames : ℕ} (hfits : Fits frames vol) :
    RoundTrip frames vol := by
  refine ⟨imageOf vol, ?_, rfl, map_foldl_record [] _⟩
  rw [parseDiskImage_of_not_fat hfits.notFat]
  exact (parse_eq_ok h).2 ⟨⟨hfits.nesting, hfits.small⟩, rfl⟩

/-- A volume reads back exactly when its boot block does not pass for one of FAT, its drawers are
not nested too deeply for the interpreter, and no file has more blocks than its header has places
for. -/
theorem volume_reads_back_iff (h : LaidOut vol) (frames : ℕ) :
    RoundTrip frames vol ↔ Fits frames vol :=
  ⟨fits_of_roundTrip h, roundTrip_of_fits h⟩

end Image

/-! ### A volume with one file -/

/-- The words with their places in a block. -/
def wordAt (words : List (ℕ × ℕ)) (i : ℕ) : ℕ := (words.lookup i).getD 0

/-- The block with these words, and zeros elsewhere. -/
def ofWords (words : List (ℕ × ℕ)) : Bytes :=
  (List.range 128).flatMap fun i => beBytes (wordAt words i)

lemma length_ofWords (words : List (ℕ × ℕ)) : (ofWords words).length = 512 := by
  simp [ofWords, List.length_flatMap, beBytes]

lemma be32_ofWords (words : List (ℕ × ℕ)) {i : ℕ} (hi : i < 128) :
    be32 (ofWords words) (4 * i) = wordAt words i % 2 ^ 32 := by
  have hword := @block_flatMap_range (fun i => beBytes (wordAt words i)) 4 128 i (fun _ => rfl) hi
  rw [be32, ofWords, Nat.mul_comm, hword, beNat_beBytes]

lemma be32_of_word {words : List (ℕ × ℕ)} {i offset value : ℕ} (hword : wordAt words i = value)
    (hvalue : value < 2 ^ 32) (hi : i < 128) (hoffset : offset = 4 * i) :
    be32 (ofWords words) offset = value := by
  rw [hoffset, be32_ofWords words hi, hword, Nat.mod_eq_of_lt hvalue]

lemma blockChecksum_ofWords (words : List (ℕ × ℕ))
    (h : ((List.range 128).map fun i => wordAt words i % 2 ^ 32).sum % 2 ^ 32 = 0) :
    blockChecksum (ofWords words) = true := by
  have hwords : ((List.range 128).map fun i => be32 (ofWords words) (4 * i)) =
      (List.range 128).map fun i => wordAt words i % 2 ^ 32 :=
    List.map_congr_left fun i hi => be32_ofWords words (List.mem_range.1 hi)
  rw [blockChecksum, hwords]
  exact decide_eq_true h

/-- The words of a block with its checksum. -/
def checked (words : List (ℕ × ℕ)) : List (ℕ × ℕ) :=
  (5, 2 ^ 32 - (words.map Prod.snd).sum % 2 ^ 32) :: words

private lemma sum_range_single (index value count : ℕ) :
    ((List.range count).map fun i => if i = index then value else 0).sum =
      if index < count then value else 0 := by
  induction count with
  | zero => rfl
  | succ count ih =>
      rw [List.range_succ, List.map_append, List.sum_append, ih, List.map_singleton,
        List.sum_singleton]
      split_ifs <;> omega

/-- The words of a block sum up to the words that are given. -/
lemma sum_wordAt {words : List (ℕ × ℕ)} {count : ℕ} (hnodup : (words.map Prod.fst).Nodup)
    (hinside : ∀ word ∈ words, word.1 < count) :
    ((List.range count).map (wordAt words)).sum = (words.map Prod.snd).sum := by
  induction words with
  | nil =>
      have hzero : (List.range count).map (wordAt []) = List.replicate count 0 := by
        rw [← List.length_range (n := count), ← List.map_const', List.length_range]
        rfl
      rw [hzero, List.sum_replicate_nat, Nat.mul_zero]
      rfl
  | cons word words ih =>
      obtain ⟨hnew, hnodup⟩ := List.nodup_cons.1 hnodup
      obtain ⟨hword, hinside⟩ := List.forall_mem_cons.1 hinside
      have hsplit : ∀ i, wordAt (word :: words) i =
          (if i = word.1 then word.2 else 0) + wordAt words i := by
        intro i
        rw [wordAt, List.lookup_cons]
        by_cases hi : i = word.1
        · have hnone : words.lookup i = none := by
            rw [List.lookup_eq_none_iff]
            intro other hother
            rw [bne_iff_ne]
            rintro rfl
            exact hnew (hi ▸ List.mem_map_of_mem hother)
          rw [wordAt, hnone, if_pos hi, beq_iff_eq.2 hi]
          rfl
        · rw [if_neg hi, beq_false_of_ne hi, Nat.zero_add]
          rfl
      have hsingle : ((List.range count).map fun i => if i = word.1 then word.2 else 0).sum =
          word.2 := by
        rw [sum_range_single, if_pos hword]
      rw [List.map_congr_left fun i _ => hsplit i, List.sum_map_add, hsingle, ih hnodup hinside]
      rfl

/-- The checksum of a block makes its words sum up to zero. -/
lemma blockChecksum_checked {words : List (ℕ × ℕ)} (hnodup : (5 :: words.map Prod.fst).Nodup)
    (hinside : ∀ word ∈ words, word.1 < 128) : blockChecksum (ofWords (checked words)) = true := by
  have hsum := @sum_wordAt (checked words) 128 hnodup
    (List.forall_mem_cons.2 ⟨show 5 < 128 by decide, hinside⟩)
  have hmod : (List.range 128).map (fun i => wordAt (checked words) i % 2 ^ 32) =
      ((List.range 128).map (wordAt (checked words))).map (· % 2 ^ 32) := by
    rw [List.map_map]
    rfl
  refine blockChecksum_ofWords _ ?_
  rw [hmod, ← List.sum_nat_mod, hsum, checked, List.map_cons, List.sum_cons]
  generalize (words.map Prod.snd).sum = total
  simp only []
  omega

/-- The words of the blocks for a file of this many blocks, whose name `A` is in the seventh place
of the hash table. -/
def bootWords : List (ℕ × ℕ) := [(0, 0x444F5301), (2, 880)]

def rootWords : List (ℕ × ℕ) :=
  checked [(0, 2), (3, 72), (12, 881), (108, 0x01410000), (127, 1)]

def headerWords (count : ℕ) : List (ℕ × ℕ) :=
  checked ([(0, 2), (1, 881), (2, min count 72), (81, count * 512), (108, 0x01410000),
    (125, 880), (126, if count ≤ 72 then 0 else 882), (127, 0xFFFFFFFD)] ++
      (List.range (min count 72)).map fun i => (77 - i, 900 + i))

def extensionWords (count : ℕ) : List (ℕ × ℕ) :=
  checked ([(0, 16), (1, 882), (2, count - 72), (125, 881), (127, 0xFFFFFFFD)] ++
    (List.range (count - 72)).map fun i => (77 - i, 972 + i))

def sampleBlock (count key : ℕ) : Bytes :=
  if key = 0 then ofWords bootWords
  else if key = 880 then ofWords rootWords
  else if key = 881 then ofWords (headerWords count)
  else if key = 882 then ofWords (extensionWords count)
  else if 900 ≤ key ∧ key < 900 + count then List.replicate 512 0x41
  else List.replicate 512 0

/-- The FFS volume with this file. -/
def sampleVolume (count : ℕ) : Volume where
  data := (List.range blocks).flatMap (sampleBlock count)
  variant := .ffs
  label := [0x41]
  entries := .file 881 [0x41] (List.replicate (count * 512) 0x41)
    ((List.range count).map (900 + ·)) (if count ≤ 72 then [] else [882]) .none

section Sample

variable {count : ℕ}

lemma length_sampleBlock (count key : ℕ) : (sampleBlock count key).length = 512 := by
  unfold sampleBlock
  split_ifs <;> simp only [length_ofWords, List.length_replicate]

lemma sample_data (count : ℕ) :
    (sampleVolume count).data = (List.range blocks).flatMap (sampleBlock count) := by
  simp only [sampleVolume]

lemma length_sample_data (count : ℕ) : (sampleVolume count).data.length = standardSize := by
  rw [sample_data, length_flatMap_range (length_sampleBlock count)]
  rfl

lemma sample_blockAt (count : ℕ) {key : ℕ} (hkey : key < blocks) :
    blockAt (sampleVolume count).data key = sampleBlock count key := by
  rw [blockAt, sample_data, Nat.succ_mul, block_flatMap_range (length_sampleBlock count) hkey]

/-- The first bytes of the image are those of the boot block. -/
lemma slice_sample_data (count : ℕ) {start length : ℕ} (h : start + length ≤ 512) :
    slice (sampleVolume count).data start (start + length) =
      slice (ofWords bootWords) start (start + length) := by
  have hslice := @slice_flatMap_range (sampleBlock count) 512 blocks 0 (length_sampleBlock count)
    start length h (by decide)
  rw [Nat.zero_mul, Nat.zero_add] at hslice
  rw [sample_data, hslice]
  rfl

lemma sample_root (count : ℕ) :
    blockAt (sampleVolume count).data rootKey = ofWords rootWords := by
  rw [sample_blockAt count (by decide)]
  rfl

lemma sample_header (count : ℕ) :
    blockAt (sampleVolume count).data 881 = ofWords (headerWords count) := by
  rw [sample_blockAt count (by decide)]
  rfl

lemma sample_dataBlock {i : ℕ} (hi : i < count) (hcount : count ≤ 144) :
    blockAt (sampleVolume count).data (900 + i) = List.replicate 512 0x41 := by
  have hkey : 900 + i < blocks := by
    rw [blocks]
    omega
  rw [sample_blockAt count hkey, sampleBlock, if_neg (by omega), if_neg (by omega),
    if_neg (by omega), if_neg (by omega), if_pos ⟨by omega, by omega⟩]

/-- The data blocks hold the content. -/
lemma sample_parts (hcount : count ≤ 144) :
    List.Forall₂ (HoldsPart (sampleVolume count).data .ffs 881) ((List.range count).map (900 + ·))
      (chunks 512 (List.replicate (count * 512) 0x41)) := by
  have hlength : (List.replicate (count * 512) (0x41 : UInt8)).length = count * 512 :=
    List.length_replicate
  rw [chunks_eq_map (by decide) (by rw [hlength]; exact Nat.dvd_mul_left 512 count), hlength,
    Nat.mul_div_cancel _ (by decide), List.forall₂_map_left_iff, List.forall₂_map_right_iff,
    List.forall₂_same]
  intro i hi
  have hi : i < count := List.mem_range.1 hi
  have hpart : slice (List.replicate (count * 512) (0x41 : UInt8)) (i * 512) (i * 512 + 512) =
      List.replicate 512 0x41 := by
    have hstop : i * 512 + 512 ≤ count * 512 := by omega
    rw [slice_replicate hstop, Nat.add_sub_cancel_left]
  rw [hpart]
  show (blockAt (sampleVolume count).data (900 + i)).take _ = _
  rw [sample_dataBlock hi hcount, List.take_length]

/-- A field of the boot block. -/
lemma sample_rootPointer (count : ℕ) : be32 (sampleVolume count).data 8 = rootKey := by
  have hword : be32 (ofWords bootWords) (4 * 2) = 880 := be32_ofWords bootWords (by decide)
  rw [be32, slice_sample_data count (by decide)]
  exact hword

lemma sample_dosType (count : ℕ) : (sampleVolume count).data.take 4 = ascii "DOS" ++ [1] := by
  have hboot : slice (ofWords bootWords) 0 (0 + 4) = ascii "DOS" ++ [1] := by decide +kernel
  rw [← hboot, ← slice_sample_data count (by decide)]
  rfl

lemma lists_ofWords {words : List (ℕ × ℕ)} {dataBlocks : List ℕ}
    (h : ∀ i < 72, wordAt words (77 - i) % 2 ^ 32 = dataBlocks.getD i 0) :
    Lists (ofWords words) dataBlocks := by
  intro i hi
  rw [show 308 - 4 * i = 4 * (77 - i) by omega, be32_ofWords words (by omega), h i hi]

/-- The file is in one block or in 73 blocks. -/
lemma sample_fileAt (hcount : count = 1 ∨ count = 73) :
    FileAt (sampleVolume count).data .ffs 881 [0x41] (List.replicate (count * 512) 0x41)
      ((List.range count).map (900 + ·)) (if count ≤ 72 then [] else [882]) := by
  have hextension : blockAt (sampleVolume 73).data 882 = ofWords (extensionWords 73) := by
    rw [sample_blockAt 73 (by decide)]
    rfl
  refine ⟨?_, ?_, ?_, ?_, sample_parts (by omega)⟩
  · rw [sample_header]
    rcases hcount with rfl | rfl
    all_goals exact ⟨by decide +kernel, blockChecksum_ofWords _ (by decide +kernel),
      by decide +kernel, by decide +kernel, by decide +kernel⟩
  · rw [sample_header, List.length_replicate]
    rcases hcount with rfl | rfl <;> decide +kernel
  · rw [sample_header]
    refine lists_ofWords ?_
    rcases hcount with rfl | rfl <;> decide +kernel
  · rw [sample_header]
    rcases hcount with rfl | rfl
    · rw [show be32 (ofWords (headerWords 1)) 504 = 0 by decide +kernel]
      exact .stop
    · rw [show be32 (ofWords (headerWords 73)) 504 = 882 by decide +kernel]
      refine .next (by decide) ?_ ?_ .stop
      · rw [hextension]
        exact ⟨by decide +kernel, blockChecksum_ofWords _ (by decide +kernel), by decide +kernel,
          by decide +kernel, lists_ofWords (by decide +kernel)⟩
      · rw [hextension]
        decide +kernel

/-- The file is in the chain of its hash value, and the other chains are empty. -/
lemma sample_table (hcount : count = 1 ∨ count = 73) :
    HasTable (sampleVolume count).data (ofWords rootWords) [881] := by
  refine ⟨(List.range 72).map fun bucket => if bucket = 6 then [881] else [], by decide, ?_⟩
  rw [List.forall₂_map_right_iff, List.forall₂_same]
  intro bucket hbucket
  have hbucket : bucket < 72 := List.mem_range.1 hbucket
  have hword : be32 (ofWords rootWords) (24 + bucket * 4) =
      wordAt rootWords (6 + bucket) % 2 ^ 32 := by
    rw [show 24 + bucket * 4 = 4 * (6 + bucket) by omega, be32_ofWords rootWords (by omega)]
  rw [hword]
  by_cases hfile : bucket = 6
  · have hlast : be32 (blockAt (sampleVolume count).data 881) 496 = 0 := by
      rw [sample_header]
      rcases hcount with rfl | rfl <;> decide +kernel
    rw [if_pos hfile, hfile]
    exact .next ⟨by decide, hlast⟩ (.stop rfl)
  · have hempty : ∀ bucket < 72, bucket ≠ 6 → wordAt rootWords (6 + bucket) % 2 ^ 32 = 0 := by
      decide +kernel
    rw [if_neg hfile]
    exact .stop (hempty bucket hbucket hfile)

/-- Both volumes are laid out as AmigaDOS prescribes. -/
lemma sample_laidOut (hcount : count = 1 ∨ count = 73) : LaidOut (sampleVolume count) := by
  have hdos := sample_dosType count
  have hlabel : ([0x41] : PyStr).length ≤ 30 ∧ ∀ c ∈ ([0x41] : PyStr), c.val < 256 :=
    ⟨by decide, fun c hc => by rw [List.mem_singleton.1 hc]; decide⟩
  have hroot : Header (ofWords rootWords) 1 [0x41] :=
    ⟨by decide +kernel, blockChecksum_ofWords _ (by decide +kernel), by decide +kernel,
      by decide +kernel, by decide +kernel⟩
  have hholds : Holds (sampleVolume count).data .ffs (sampleVolume count).entries := by
    rw [sampleVolume, Holds, Holds]
    exact ⟨⟨by decide, by decide, hlabel.2, by decide, by decide, by decide, by decide⟩,
      sample_fileAt hcount, trivial⟩
  refine
    { size := length_sample_data count
      dosType := ?_
      typeByte := ?_
      root := ?_
      label := hlabel
      table := ?_
      entries := hholds
      inside := ?_
      distinct := ?_ }
  · rw [show (3 : ℕ) = min 3 4 from rfl, ← List.take_take, hdos]
    rfl
  · have htype : ((sampleVolume count).data.take 4).getD 3 0 =
        (sampleVolume count).data.getD 3 0 := by
      simp only [List.getD_eq_getElem?_getD, List.getElem?_take_of_lt (show 3 < 4 by decide)]
    rw [u8, ← htype, hdos]
    rfl
  · rw [sample_root]
    exact hroot
  · rw [sample_root]
    exact sample_table hcount
  · rcases hcount with rfl | rfl <;> decide +kernel
  · rcases hcount with rfl | rfl <;> decide +kernel

lemma sample_files (count : ℕ) : (sampleVolume count).entries.files [] =
    [(Entries.joined [[0x41]], List.replicate (count * 512) 0x41)] := by
  rw [sampleVolume, Entries.files, Entries.files, List.nil_append]

/-- A file of one block is read. -/
theorem sample_small : RoundTrip 1 (sampleVolume 1) := by
  refine (volume_reads_back_iff (sample_laidOut (.inl rfl)) 1).2 ⟨?_, show 1 ≤ 1 by decide, ?_⟩
  · exact not_fat_of_rootPointer (sample_rootPointer 1)
  · rw [sample_files, List.forall_mem_singleton, List.length_replicate]
    decide

/-- A file of 73 blocks is not, however deep the calls may be nested. -/
theorem sample_large : LaidOut (sampleVolume 73) ∧
    ∀ frames, ¬RoundTrip frames (sampleVolume 73) := by
  have hlaid : LaidOut (sampleVolume 73) := sample_laidOut (.inr rfl)
  refine ⟨hlaid, fun frames hreads => ?_⟩
  have hsmall := (fits_of_roundTrip hlaid hreads).small
  rw [sample_files, List.forall_mem_singleton, List.length_replicate] at hsmall
  exact absurd hsmall (by decide)

end Sample

end Adf

end AVBox
