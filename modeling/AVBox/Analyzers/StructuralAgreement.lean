import AVBox.Analyzers.FatImages
import AVBox.Analyzers.StructuralClean

/-!
# What the validator calls valid, and what the enumerator reads

`structural.py` and `disk_images.py` read the same two filesystems with different checks.  For a
volume that the validator calls valid, `parse_disk_image` returns an image of the same variant
exactly when the image meets what only the enumerator asks for (`agreement_iff`): names in an ADF
image, the place of the root directory of a FAT32 volume, and the chains of the FAT rows whose short
name the validator takes for `.` or `..`.
-/

namespace AVBox

namespace StructuralValidator

open Binary Fallible Walk

/-! ## FAT -/

section Fat

variable {data : Bytes} {limits : StructuralLimits} {frames : ℕ}

/-- The validator examines the row. -/
def ExaminedRow (data : Bytes) (vol : Fat.Volume) (row : Fat.Row) : Prop :=
  ExaminedDirectory data vol row.directory ∧ (asItem row).name ∉ PyStr.dots

/-- What the enumerator needs of a FAT volume besides what the validator has examined. -/
structure FatEnumerable (frames : ℕ) (data : Bytes) (vol : Fat.Volume) : Prop where
  /-- The root directory of a FAT32 volume is a chain, and nothing else. -/
  root : vol.variant = .fat32 → vol.rootEntries = 0 ∧ 2 ≤ vol.rootCluster
  shallow : Fat.Shallow data vol frames
  /-- A row that is read and that the validator has not examined has its clusters. -/
  rest : ∀ row, Fat.ReadDirectory data vol row.directory →
    row ∈ Fat.rowsOf data vol row.directory → row.passedOver = false →
    ¬ExaminedRow data vol row → ∃ content, Fat.chain data vol row.start row.wanted = .ok content

lemma slice_take {start stop n : ℕ} {bytes : Bytes} (h : stop ≤ n) :
    slice (bytes.take n) start stop = slice bytes start stop := by
  rw [slice, slice, List.drop_take, List.take_take]
  congr 1
  omega

lemma take_head_ne {data : Bytes} (h : (data.take 65536).take 3 ≠ ascii "DOS") :
    data.take 3 ≠ ascii "DOS" := by
  rwa [List.take_take] at h

/-- What makes the validator take a file for a FAT volume. -/
lemma recognised_fat (h : recognised data = some .fat) :
    512 ≤ data.length ∧ slice data 510 512 = [0x55, 0xAA] ∧ data.take 3 ≠ ascii "DOS" := by
  unfold recognised at h
  simp only [] at h
  split_ifs at h with hdos hfat
  · cases h
  · obtain ⟨hlong, hmark, -⟩ := hfat
    rw [List.length_take] at hlong
    rw [slice_take (by decide)] at hmark
    exact ⟨by omega, hmark, take_head_ne hdos⟩
  all_goals cases h

lemma volume_eq (hlong : 512 ≤ data.length) (hmark : slice data 510 512 = [0x55, 0xAA]) :
    Fat.volume data = if (Fat.Volume.ofBoot data).Coherent data.length then
      some (Fat.Volume.ofBoot data) else none := by
  rw [Fat.volume, if_neg]
  rintro (h | h)
  · omega
  · exact h hmark

/-- What the enumerator checks of the boot sector beyond what the validator does. -/
lemma coherent_iff {vol : Fat.Volume} {size : ℕ} (hbpb : BpbValid vol size) :
    vol.Coherent size ↔ (vol.variant = .fat32 → vol.rootEntries = 0 ∧ 2 ≤ vol.rootCluster) := by
  obtain ⟨hbps, hspc, hpow, hreserved, hfats, hdata, hsize, hfat⟩ := hbpb
  constructor
  · rintro ⟨-, -, -, -, -, -, -, -, -, hroot⟩ h32
    by_contra h
    exact hroot ⟨h32, by omega⟩
  · intro h
    refine ⟨hbps, by omega, hpow, by omega, hfats, by omega, by omega, hsize, hdata, ?_⟩
    rintro ⟨h32, hroot⟩
    have := h h32
    omega

/-- What the validator has examined in a valid volume can be read. -/
lemma allReadable_iff {final : FatState} (h : FatValid limits frames data final)
    (hlimit : RowsWithin limits.maxNodes data (Fat.Volume.ofBoot data)) :
    Fat.AllReadable data (Fat.Volume.ofBoot data) ↔
      ∀ row, Fat.ReadDirectory data (Fat.Volume.ofBoot data) row.directory →
        row ∈ Fat.rowsOf data (Fat.Volume.ofBoot data) row.directory → row.passedOver = false →
        ¬ExaminedRow data (Fat.Volume.ofBoot data) row →
        ∃ content, Fat.chain data (Fat.Volume.ofBoot data) row.start row.wanted = .ok content := by
  obtain ⟨root, state, hroot, -, -, hdone⟩ := h.root
  have hread := readable_of_done (dataFits_of_bpbValid h.bpb) hdone h.clean
  constructor
  · exact fun hall row hdirectory hrow hnamed _ => hall.rows row hdirectory hrow hnamed
  · refine fun hrest => ⟨⟨root, hroot⟩, fun row hdirectory hrow hnamed => ?_⟩
    by_cases hexamined : ExaminedRow data (Fat.Volume.ofBoot data) row
    · obtain ⟨hparent, hname⟩ := hexamined
      cases readable_of_examined hlimit hroot hread hparent row hrow with
      | dots hdots => exact absurd hdots hname
      | @file _ content hfile hchain =>
          refine ⟨content, ?_⟩
          rw [Fat.Row.wanted, show row.isDirectory = false from hfile,
            if_neg Bool.false_ne_true]
          exact hchain
      | @directory _ content hdir hchain _ =>
          refine ⟨content, ?_⟩
          rw [Fat.Row.wanted, show row.isDirectory = true from hdir, if_pos rfl]
          exact hchain
    · exact hrest row hdirectory hrow hnamed hexamined

/-- The enumerator returns an image of the variant. -/
def ReturnsImage (frames : ℕ) (data : Bytes) (variant : Option String) : Prop :=
  ∃ image, parseDiskImage frames data = .ok (some image) ∧ variant = some image.filesystem.text

/-- When the enumerator returns an image of a FAT volume that the validator calls valid. -/
theorem fat_agreement_iff (hformat : recognised data = some .fat) {final : FatState}
    (h : FatValid limits frames data final)
    (hlimit : RowsWithin limits.maxNodes data (Fat.Volume.ofBoot data)) :
    ReturnsImage frames data (some (Fat.Volume.ofBoot data).variant.text) ↔
      FatEnumerable frames data (Fat.Volume.ofBoot data) := by
  obtain ⟨hlong, hmark, hdos⟩ := recognised_fat hformat
  have hvolume := volume_eq hlong hmark
  have hall := allReadable_iff h hlimit
  have hcoherent := coherent_iff h.bpb
  have hnone : Adf.variantOf data = none := by
    rw [Adf.variantOf, if_pos (.inr hdos)]
  generalize hvol : Fat.Volume.ofBoot data = vol at *
  by_cases hroot : vol.Coherent data.length
  · rw [if_pos hroot] at hvolume
    have hparse : Fat.parse frames data =
        Fat.enumerate data vol frames >>= fun found => .ok (some (Fat.image data vol found)) := by
      rw [Fat.parse, hvolume]
      rfl
    have henumerated : ReturnsImage frames data (some vol.variant.text) ↔
        Fat.AllReadable data vol ∧ Fat.Shallow data vol frames := by
      rcases @Fat.enumerate_cases data vol frames with
        ⟨found, hok, hread, hshallow, -⟩ | ⟨e, herror, -, hread, hshallow⟩ | ⟨herror, hshallow⟩
      · rw [hok] at hparse
        refine iff_of_true ⟨Fat.image data vol found, ?_, rfl⟩ ⟨hread, hshallow⟩
        rw [parseDiskImage, hparse]
        rfl
      · rw [herror] at hparse
        refine iff_of_false ?_ fun h => hread h.1
        rintro ⟨image, himage, -⟩
        rw [parseDiskImage, hparse] at himage
        cases himage
      · rw [herror] at hparse
        refine iff_of_false ?_ fun h => hshallow h.2
        rintro ⟨image, himage, -⟩
        rw [parseDiskImage, hparse] at himage
        cases himage
    rw [henumerated, hall]
    constructor
    · intro h
      exact ⟨hcoherent.1 hroot, h.2, h.1⟩
    · intro h
      exact ⟨h.rest, h.shallow⟩
  · rw [if_neg hroot] at hvolume
    refine iff_of_false ?_ fun h => hroot (hcoherent.2 h.root)
    rintro ⟨image, himage, -⟩
    rw [parseDiskImage, Fat.parse, hvolume, Adf.parse, hnone] at himage
    cases himage

end Fat

/-! ## ADF -/

section Adf

variable {data : Bytes} {variant : AdfVariant}

/-- The entries of an ADF image, whether or not they can be read. -/
inductive AdfEntry (data : Bytes) : ℕ → Prop
  | root {key : ℕ} : key ∈ Adf.keys data (Adf.blockAt data Adf.rootKey) → AdfEntry data key
  | sub {parent key : ℕ} : AdfEntry data parent →
      Adf.signedBe32 (Adf.blockAt data parent) 508 = 2 →
      key ∈ Adf.keys data (Adf.blockAt data parent) → AdfEntry data key

/-- The enumerator accepts the name of an entry. -/
def SafeEntryName (name : PyStr) : Prop :=
  ¬(name = [] ∨ 0x2F ∈ name ∨ 0x5C ∈ name ∨ name ∈ PyStr.dots)

/-- What only the enumerator asks of an entry. -/
structure NamedEntry (data : Bytes) (key : ℕ) : Prop where
  named : ∃ name, Adf.bstr (Adf.blockAt data key) 432 = .ok name ∧ SafeEntryName name
  kind : Adf.signedBe32 (Adf.blockAt data key) 508 = 2 ∨
    Adf.signedBe32 (Adf.blockAt data key) 508 = -3

/-- What the enumerator needs of an ADF image besides what the validator has examined. -/
structure AdfEnumerable (data : Bytes) : Prop where
  /-- `parse_disk_image` does not take the file for a FAT volume. -/
  noFat : Fat.volume data = none
  label : ∃ name, Adf.bstr (Adf.blockAt data Adf.rootKey) 432 = .ok name
  entries : ∀ key, AdfEntry data key → NamedEntry data key

lemma block_eq_ok {key : ℕ} {block : Bytes} :
    Adf.block data key = .ok block ↔ ¬(key < 2 ∨ key ≥ Adf.blocks) ∧
      block = Adf.blockAt data key := by
  unfold Adf.block
  split
  · next hout =>
      constructor
      · intro h
        cases h
      · exact fun h => absurd hout h.1
  · next hin =>
      constructor
      · intro h
        exact ⟨hin, (Except.ok.inj h).symm⟩
      · rintro ⟨-, rfl⟩
        rfl

lemma length_blockAt (hsize : data.length = Adf.standardSize) {key : ℕ}
    (hkey : ¬(key < 2 ∨ key ≥ Adf.blocks)) : (Adf.blockAt data key).length = 512 := by
  rw [Adf.blockAt, length_slice, hsize]
  unfold Adf.standardSize
  unfold Adf.blocks at hkey
  omega

/-- What the validator counts of a data block is what the enumerator reads from it. -/
lemma payload_of_checked (hsize : data.length = Adf.standardSize) {key pointer : ℕ}
    (hpointer : ¬(pointer < 2 ∨ pointer ≥ Adf.blocks))
    (hchecked : ¬(variant = .ofs ∧ (be32 (Adf.blockAt data pointer) 0 ≠ 8 ∨
      be32 (Adf.blockAt data pointer) 4 ≠ key ∨ be32 (Adf.blockAt data pointer) 12 > 488 ∨
      Adf.blockChecksum (Adf.blockAt data pointer) = false))) :
    ∃ payload, Adf.payload variant key (Adf.blockAt data pointer) = .ok payload ∧
      payload.length = if variant = .ofs then be32 (Adf.blockAt data pointer) 12 else 512 := by
  have hlen := length_blockAt hsize hpointer
  cases variant with
  | ffs => exact ⟨_, rfl, hlen⟩
  | ofs =>
      simp only [true_and, not_or, not_not] at hchecked
      obtain ⟨htype, hkey, hcount, hsum⟩ := hchecked
      refine ⟨slice (Adf.blockAt data pointer) 24
        (24 + be32 (Adf.blockAt data pointer) 12), ?_, ?_⟩
      · unfold Adf.payload
        simp only []
        rw [if_neg (by rw [not_or, not_not, not_not]; exact ⟨htype, hkey⟩),
          if_neg (by rw [not_or]; exact ⟨hcount, hsum⟩)]
      · rw [length_slice_of_le (by omega), if_pos rfl]

/-- The validator has seen every block that it counts. -/
lemma adfFileBlocks_seen {key wanted : ℕ} {pointers : List ℕ} {total : ℕ} {state state' : AdfState}
    (h : adfFileBlocks data variant key wanted pointers total state = .ok state') :
    state.seen ⊆ state'.seen := by
  induction pointers generalizing total state with
  | nil =>
      rw [adfFileBlocks] at h
      split at h
      · cases h
      · obtain rfl := Except.ok.inj h
        exact List.Subset.refl _
  | cons pointer rest ih =>
      rw [adfFileBlocks] at h
      split at h
      · cases h
      simp only [] at h
      obtain ⟨payload, -, h⟩ := bind_eq_ok.1 h
      split at h
      · cases h
      generalize (total + if variant = .ofs then be32 payload 12 else 512) = total' at h
      split at h
      · obtain rfl := Except.ok.inj h
        exact List.subset_cons_self _ _
      · exact List.Subset.trans (List.subset_cons_self _ _) (ih h)

/-- A file whose blocks the validator has counted is one that the enumerator reads. -/
lemma fileBlocks_of_checked (hsize : data.length = Adf.standardSize) {key wanted : ℕ}
    {pointers : List ℕ} {state state' : AdfState} {seen : List ℕ} {out : Bytes}
    (hseen : seen ⊆ state.seen) (hshort : out.length < wanted ∨ out = [])
    (h : adfFileBlocks data variant key wanted pointers out.length state = .ok state') :
    ∃ content, Adf.fileBlocks data variant key wanted pointers seen out = .ok content := by
  induction pointers generalizing state seen out with
  | nil =>
      rw [adfFileBlocks] at h
      split at h
      · cases h
      · next hlong =>
          refine ⟨out, ?_⟩
          rcases hshort with hshort | rfl
          · exact absurd hshort hlong
          · rw [Adf.fileBlocks, if_neg]
            rw [List.length_nil] at hlong ⊢
            omega
  | cons pointer rest ih =>
      rw [adfFileBlocks] at h
      split at h
      · cases h
      next hfresh =>
      simp only [] at h
      obtain ⟨block, hblock, h⟩ := bind_eq_ok.1 h
      obtain ⟨hpointer, rfl⟩ := block_eq_ok.1 hblock
      split at h
      · cases h
      next hchecked =>
      obtain ⟨payload, hpayload, hlen⟩ := payload_of_checked hsize hpointer hchecked
      rw [← hlen, ← List.length_append] at h
      rw [Adf.fileBlocks, if_neg fun hmem => hfresh (hseen hmem), hblock]
      simp only [hpayload, bind, Except.bind]
      split at h
      · next hlong =>
          rw [if_pos hlong]
          exact ⟨_, rfl⟩
      · next hmore =>
          rw [if_neg hmore]
          exact ih (List.cons_subset_cons _ hseen) (.inl (by omega)) h

/-- What the enumerator does with an entry that the validator has looked at. -/
lemma look_of_adfLook (hsize : data.length = Adf.standardSize) {maxNodes : ℕ} {state : AdfState}
    {walkState : Adf.WalkState} {item : Adf.Item} {turn : Turn AdfState ℕ}
    (hseen : walkState.visited ⊆ state.seen) (hnamed : NamedEntry data item.key)
    (h : adfLook maxNodes data variant state item.key = .ok turn) :
    (∃ state' head walkState', turn = .enter state' (Adf.keys data (Adf.blockAt data item.key)) ∧
        Adf.signedBe32 (Adf.blockAt data item.key) 508 = 2 ∧
        Adf.look data variant walkState item =
          .ok (.enter walkState' (Adf.listing data head (Adf.blockAt data item.key))) ∧
        walkState'.visited ⊆ state'.seen) ∨
      ∃ state' walkState', turn = .stay state' ∧
        Adf.look data variant walkState item = .ok (.stay walkState') ∧
        walkState'.visited ⊆ state'.seen := by
  unfold adfLook at h
  split at h
  · cases h
  split at h
  · cases h
  next hfresh =>
  simp only [] at h
  obtain ⟨header, hblock, h⟩ := bind_eq_ok.1 h
  obtain ⟨hkey, rfl⟩ := block_eq_ok.1 hblock
  split at h
  · cases h
  next hheader =>
  obtain ⟨⟨name, hname, hsafe⟩, hkind⟩ := hnamed
  have hcons : item.key :: walkState.visited ⊆ item.key :: state.seen :=
    List.cons_subset_cons _ hseen
  have hlook : Adf.look data variant walkState item =
      if Adf.signedBe32 (Adf.blockAt data item.key) 508 = 2 then
        .ok (.enter { walkState with visited := item.key :: walkState.visited }
          (Adf.listing data (PyStr.under item.head name) (Adf.blockAt data item.key)))
      else if Adf.signedBe32 (Adf.blockAt data item.key) 508 = -3 then
        Adf.fileData data variant (Adf.blockAt data item.key) item.key >>= fun content =>
          .ok (.stay
            { entries := walkState.entries ++
                [⟨PyStr.under item.head name, content, walkState.entries.length⟩]
              visited := item.key :: walkState.visited })
      else .error (.diskImage "unsupported ADF entry type") := by
    rw [Adf.look, if_neg fun hmem => hfresh (hseen hmem), hblock]
    simp only [bind, Except.bind]
    rw [if_neg hheader, hname]
    simp only []
    rw [if_neg hsafe]
    rfl
  by_cases hdir : Adf.signedBe32 (Adf.blockAt data item.key) 508 = 2
  · rw [if_pos hdir] at h hlook
    obtain rfl := Except.ok.inj h
    exact .inl ⟨_, _, _, rfl, hdir, hlook, hcons⟩
  · have hfile := hkind.resolve_left hdir
    rw [if_neg hdir, if_pos hfile] at h hlook
    obtain ⟨state', hblocks, h⟩ := bind_eq_ok.1 h
    obtain rfl := Except.ok.inj h
    have hstart : ([] : Bytes).length < be32 (Adf.blockAt data item.key) 324 ∨ ([] : Bytes) = [] :=
      .inr rfl
    obtain ⟨content, hcontent⟩ := fileBlocks_of_checked hsize (List.nil_subset _) hstart hblocks
    have hdata : Adf.fileData data variant (Adf.blockAt data item.key) item.key = .ok content :=
      hcontent
    rw [hdata] at hlook
    exact .inr ⟨_, _, rfl, hlook, List.Subset.trans hcons (adfFileBlocks_seen hblocks)⟩

lemma map_key_listing (head : PyStr) (directory : Bytes) :
    (Adf.listing data head directory).map Adf.Item.key = Adf.keys data directory := by
  rw [Adf.listing, List.map_map]
  exact List.map_id _

/-- The enumerator walks through what the validator has walked through, if the entries have
names. -/
lemma done_of_adfWalk (hsize : data.length = Adf.standardSize)
    (hnamed : ∀ key, AdfEntry data key → NamedEntry data key) {maxNodes frames : ℕ}
    {state final : AdfState} {keys : List ℕ}
    (h : Done (adfLook maxNodes data variant) frames state keys final)
    {walkState : Adf.WalkState} {items : List Adf.Item} (hitems : items.map Adf.Item.key = keys)
    (hentries : ∀ key ∈ keys, AdfEntry data key) (hseen : walkState.visited ⊆ state.seen) :
    ∃ walkFinal, Done (Adf.look data variant) frames walkState items walkFinal ∧
      walkFinal.visited ⊆ final.seen := by
  induction h generalizing walkState items with
  | nil =>
      obtain rfl := List.map_eq_nil_iff.1 hitems
      exact ⟨walkState, .nil, hseen⟩
  | stay hlook _ ih =>
      obtain ⟨item, rest, rfl, rfl, hrest⟩ := List.map_eq_cons_iff.1 hitems
      rcases look_of_adfLook hsize hseen (hnamed _ (hentries _ List.mem_cons_self)) hlook with
        ⟨_, _, _, hturn, -⟩ | ⟨_, walkState', hturn, hwalk, hseen'⟩
      · cases hturn
      · obtain rfl := Turn.stay.inj hturn
        obtain ⟨walkFinal, hdone, hfinal⟩ :=
          ih hrest (fun key hkey => hentries key (List.mem_cons_of_mem _ hkey)) hseen'
        exact ⟨walkFinal, .stay hwalk hdone, hfinal⟩
  | enter hlook _ _ hinner hrest =>
      obtain ⟨item, rest, rfl, rfl, hmap⟩ := List.map_eq_cons_iff.1 hitems
      have hentry := hentries _ List.mem_cons_self
      rcases look_of_adfLook hsize hseen (hnamed _ hentry) hlook with
        ⟨_, head, walkState', hturn, hdir, hwalk, hseen'⟩ | ⟨_, _, hturn, -⟩
      · obtain ⟨rfl, rfl⟩ := Turn.enter.inj hturn
        obtain ⟨inside, hdone, hinside⟩ := hinner (map_key_listing head _)
          (fun key hkey => .sub hentry hdir hkey) hseen'
        obtain ⟨walkFinal, hdone', hfinal⟩ := hrest hmap
          (fun key hkey => hentries key (List.mem_cons_of_mem _ hkey)) hinside
        exact ⟨walkFinal, .enter hwalk hdone hdone', hfinal⟩
      · cases hturn

/-- An entry and all the entries below it have names. -/
inductive NamedTree (data : Bytes) : ℕ → Prop
  | file {key : ℕ} : NamedEntry data key → Adf.signedBe32 (Adf.blockAt data key) 508 ≠ 2 →
      NamedTree data key
  | directory {key : ℕ} : NamedEntry data key →
      (∀ inner ∈ Adf.keys data (Adf.blockAt data key), NamedTree data inner) → NamedTree data key

/-- What the enumerator has looked at has a name. -/
lemma look_eq_ok {state : Adf.WalkState} {item : Adf.Item} {turn : Turn Adf.WalkState Adf.Item}
    (h : Adf.look data variant state item = .ok turn) :
    NamedEntry data item.key ∧
      ((∃ state' head, Adf.signedBe32 (Adf.blockAt data item.key) 508 = 2 ∧
          turn = .enter state' (Adf.listing data head (Adf.blockAt data item.key))) ∨
        ∃ state', Adf.signedBe32 (Adf.blockAt data item.key) 508 ≠ 2 ∧ turn = .stay state') := by
  unfold Adf.look at h
  split at h
  · cases h
  simp only [] at h
  obtain ⟨header, hblock, h⟩ := bind_eq_ok.1 h
  obtain ⟨-, rfl⟩ := block_eq_ok.1 hblock
  split at h
  · cases h
  obtain ⟨name, hname, h⟩ := bind_eq_ok.1 h
  split at h
  · cases h
  next hsafe =>
  split at h
  · next hdir =>
      obtain rfl := Except.ok.inj h
      exact ⟨⟨⟨name, hname, hsafe⟩, .inl hdir⟩, .inl ⟨_, _, hdir, rfl⟩⟩
  · next hdir =>
      split at h
      · next hfile =>
          obtain ⟨content, -, h⟩ := bind_eq_ok.1 h
          obtain rfl := Except.ok.inj h
          exact ⟨⟨⟨name, hname, hsafe⟩, .inr hfile⟩, .inr ⟨_, hdir, rfl⟩⟩
      · cases h

/-- What the enumerator has walked through has names. -/
lemma namedTree_of_done {frames : ℕ} {state final : Adf.WalkState} {items : List Adf.Item}
    (h : Done (Adf.look data variant) frames state items final) :
    ∀ item ∈ items, NamedTree data item.key := by
  induction h with
  | nil => exact fun item hitem => absurd hitem List.not_mem_nil
  | stay hlook _ ih =>
      refine List.forall_mem_cons.2 ⟨?_, ih⟩
      obtain ⟨hnamed, ⟨_, _, -, hturn⟩ | ⟨_, hfile, -⟩⟩ := look_eq_ok hlook
      · cases hturn
      · exact .file hnamed hfile
  | enter hlook _ _ hinner hrest =>
      refine List.forall_mem_cons.2 ⟨?_, hrest⟩
      obtain ⟨hnamed, ⟨_, head, -, hturn⟩ | ⟨_, -, hturn⟩⟩ := look_eq_ok hlook
      · obtain ⟨-, rfl⟩ := Turn.enter.inj hturn
        refine .directory hnamed fun inner hmem => ?_
        rw [← map_key_listing head, List.mem_map] at hmem
        obtain ⟨item, hitem, rfl⟩ := hmem
        exact hinner item hitem
      · cases hturn

lemma namedEntry_of_tree (hroot : ∀ key ∈ Adf.keys data (Adf.blockAt data Adf.rootKey),
    NamedTree data key) {key : ℕ} (h : AdfEntry data key) : NamedEntry data key := by
  have htree : NamedTree data key := by
    induction h with
    | root hkey => exact hroot _ hkey
    | sub _ hdir hkey ih =>
        cases ih with
        | file _ hfile => exact absurd hdir hfile
        | directory _ hinner => exact hinner _ hkey
  cases htree with
  | file hnamed _ => exact hnamed
  | directory hnamed _ => exact hnamed

variable {limits : StructuralLimits} {frames : ℕ}

lemma dosType_of_variantOf (h : Adf.variantOf data = some variant) :
    (if data.length > 3 then dosTypes[u8 data 3]? else none) =
      some (Filesystem.adf variant).text := by
  unfold Adf.variantOf at h
  split at h
  · cases h
  next hstandard =>
  have hlong : data.length > 3 := by
    rw [not_or, not_not] at hstandard
    rw [hstandard.1]
    decide
  rw [if_pos hlong]
  split at h
  · next hfirst =>
      obtain rfl := Option.some.inj h
      rw [hfirst]
      rfl
  · split at h
    · next hfirst =>
        obtain rfl := Option.some.inj h
        rw [hfirst]
        rfl
    · cases h

/-- `_parse_fat` returns an image of a FAT variant, or it does not take the file for a volume. -/
lemma fat_parse_eq_ok {image : Option DiskImage} (h : Fat.parse frames data = .ok image) :
    Fat.volume data = none ∧ image = none ∨
      ∃ vol found, image = some (Fat.image data vol found) := by
  unfold Fat.parse at h
  split at h
  · next hnone => exact .inl ⟨hnone, (Except.ok.inj h).symm⟩
  · next vol hvol =>
      obtain ⟨found, -, h⟩ := bind_eq_ok.1 h
      exact .inr ⟨vol, found, (Except.ok.inj h).symm⟩

lemma adf_text_ne_fat (variant : AdfVariant) (other : FatVariant) :
    (Filesystem.adf variant).text ≠ (Filesystem.fat other).text := by
  cases variant <;> cases other <;> decide

/-- When the enumerator returns an image of an ADF image that the validator calls valid. -/
theorem adf_agreement_iff (h : AdfValid limits frames data variant) :
    ReturnsImage frames data (some (Filesystem.adf variant).text) ↔ AdfEnumerable data := by
  obtain ⟨final, hwalk⟩ : ∃ final, Done (adfLook limits.maxNodes data variant) frames
      ⟨0, [Adf.rootKey]⟩ (Adf.keys data (Adf.blockAt data Adf.rootKey)) final := by
    obtain ⟨root, hroot, hwalk⟩ := bind_eq_ok.1 h.walk
    obtain ⟨-, rfl⟩ := block_eq_ok.1 hroot
    obtain ⟨final, hwalk, -⟩ := bind_eq_ok.1 hwalk
    exact ⟨final, walk_eq_ok_iff.1 hwalk⟩
  have hparse : Adf.parse frames data =
      walk Exc.tooDeep (Adf.look data variant) frames ⟨[], [Adf.rootKey]⟩
        (Adf.listing data [] (Adf.blockAt data Adf.rootKey)) >>= fun final =>
      Adf.bstr (Adf.blockAt data Adf.rootKey) 432 >>= fun name => .ok (some
        { format := "amiga-adf"
          filesystem := .adf variant
          label := if name = [] then none else some name
          entries := final.entries }) := by
    unfold Adf.parse
    rw [h.dosType]
    simp only [block_eq_ok.2 ⟨show ¬(Adf.rootKey < 2 ∨ Adf.rootKey ≥ Adf.blocks) by decide, rfl⟩,
      bind, Except.bind]
    rw [if_neg (by rw [not_or, not_not, not_not]; exact h.root),
      if_neg (by rw [h.checksum]; exact Bool.noConfusion)]
    rfl
  constructor
  · rintro ⟨image, himage, hvariant⟩
    obtain ⟨fat, hfat, himage⟩ := bind_eq_ok.1 himage
    rcases fat_parse_eq_ok hfat with ⟨hnone, rfl⟩ | ⟨vol, found, rfl⟩
    · simp only [hparse] at himage
      obtain ⟨final, hdone, himage⟩ := bind_eq_ok.1 himage
      obtain ⟨name, hname, -⟩ := bind_eq_ok.1 himage
      have htree := namedTree_of_done (walk_eq_ok_iff.1 hdone)
      refine ⟨hnone, ⟨name, hname⟩, fun key hkey => namedEntry_of_tree (fun key hmem => ?_) hkey⟩
      rw [← map_key_listing [], List.mem_map] at hmem
      obtain ⟨item, hitem, rfl⟩ := hmem
      exact htree item hitem
    · obtain rfl := Option.some.inj (Except.ok.inj himage)
      exact absurd (Option.some.inj hvariant) (adf_text_ne_fat variant vol.variant)
  · rintro ⟨hfat, ⟨name, hname⟩, hentries⟩
    have hstart : (⟨[], [Adf.rootKey]⟩ : Adf.WalkState).visited ⊆ [Adf.rootKey] :=
      List.Subset.refl _
    obtain ⟨walkFinal, hdone, -⟩ := done_of_adfWalk h.size hentries hwalk (map_key_listing [] _)
      (fun key hkey => .root hkey) hstart
    refine ⟨⟨"amiga-adf", .adf variant, if name = [] then none else some name,
      walkFinal.entries⟩, ?_, rfl⟩
    rw [parseDiskImage, Fat.parse, hfat, hparse, walk_eq_ok_iff.2 hdone, hname]
    rfl

end Adf

/-! ## The two readers -/

section Readers

variable {limits : StructuralLimits} {frames : ℕ} {data : Bytes}

/-- The validator has not left out rows of a FAT volume because of the node limit.  In an ADF image
it says so when it reaches the limit. -/
def NodesSuffice (limits : StructuralLimits) (data : Bytes) : Prop :=
  recognised data = some .fat → RowsWithin limits.maxNodes data (Fat.Volume.ofBoot data)

/-- The validator reports a FAT volume or an ADF image of the variant as valid. -/
def ReportsValid (limits : StructuralLimits) (frames : ℕ) (data : Bytes)
    (variant : Option String) : Prop :=
  NodesSuffice limits data ∧ ∃ v, validate limits frames data = .ok (some v) ∧
    (v.format = .fat ∨ v.format = .adf) ∧ v.state = .valid ∧ v.variant = variant

/-- What is valid for the validator has an image of the same variant for the enumerator. -/
def Agrees (limits : StructuralLimits) (frames : ℕ) (data : Bytes) : Prop :=
  ∀ variant, ReportsValid limits frames data variant → ReturnsImage frames data variant

/-- What the enumerator needs besides what the validator has examined. -/
def Enumerable (frames : ℕ) (data : Bytes) : Prop :=
  match recognised data with
  | some .fat => FatEnumerable frames data (Fat.Volume.ofBoot data)
  | some .adf => AdfEnumerable data
  | _ => True

lemma rdb_format {v : StructuralValidation} (h : rdb data = .ok v) : v.format = .rdb := by
  unfold rdb at h
  simp only [] at h
  split at h
  · obtain rfl := Except.ok.inj h
    rfl
  · obtain rfl := Except.ok.inj h
    rfl
  · split at h
    · obtain rfl := Except.ok.inj h
      rfl
    · cases h

lemma iso_format {v : StructuralValidation} (h : iso limits data = .ok v) :
    v.format = .iso9660 := by
  unfold iso at h
  simp only [] at h
  split at h
  · obtain rfl := Except.ok.inj h
    rfl
  · obtain ⟨below, -, h⟩ := bind_eq_ok.1 h
    obtain rfl := Except.ok.inj h
    rfl

lemma lha_format {v : StructuralValidation} (h : lha limits data = .ok v) : v.format = .lha := by
  obtain ⟨final, -, h⟩ := bind_eq_ok.1 h
  obtain rfl := Except.ok.inj h
  rfl

/-- The validation of a file that is taken for a medium of the format. -/
def validateAs (limits : StructuralLimits) (frames : ℕ) (data : Bytes) :
    MediaFormat → Except Exc StructuralValidation
  | .adf => adf limits frames data
  | .fat => fat limits frames data
  | .rdb => rdb data
  | .iso9660 => iso limits data
  | .lha => lha limits data

lemma validateAs_format {format : MediaFormat} {v : StructuralValidation}
    (h : validateAs limits frames data format = .ok v) : v.format = format := by
  cases format with
  | adf => exact (adf_variant h).1
  | fat => exact (fat_variant h).1
  | rdb => exact rdb_format h
  | iso9660 => exact iso_format h
  | lha => exact lha_format h

/-- What is reported as valid has been taken for a medium of its format, and validated as one. -/
lemma validated_as {v : StructuralValidation} (h : validate limits frames data = .ok (some v))
    (hstate : v.state = .valid) :
    recognised data = some v.format ∧ validateAs limits frames data v.format = .ok v := by
  obtain ⟨format, hrecognised, hv⟩ : ∃ format, recognised data = some format ∧
      validateAs limits frames data format = .ok v := by
    unfold validate at h
    cases hrecognised : recognised data with
    | none =>
        rw [hrecognised] at h
        cases h
    | some format =>
        rw [hrecognised] at h
        refine ⟨format, rfl, ?_⟩
        cases format with
        | adf =>
            simp only [] at h
            split at h
            · exact absurd hstate (byteLimit_not_valid h)
            · exact map_some_eq_ok.1 h
        | fat =>
            simp only [] at h
            split at h
            · exact absurd hstate (byteLimit_not_valid h)
            · exact map_some_eq_ok.1 h
        | rdb => exact map_some_eq_ok.1 h
        | iso9660 => exact map_some_eq_ok.1 h
        | lha =>
            simp only [] at h
            split at h
            · exact absurd hstate (byteLimit_not_valid h)
            · exact map_some_eq_ok.1 h
  obtain rfl := validateAs_format hv
  exact ⟨hrecognised, hv⟩

/-- What is reported as a FAT volume or an ADF image has been validated as one. -/
lemma validate_cases {v : StructuralValidation} (h : validate limits frames data = .ok (some v))
    (hformat : v.format = .fat ∨ v.format = .adf) (hstate : v.state = .valid) :
    recognised data = some .fat ∧ fat limits frames data = .ok v ∨
      recognised data = some .adf ∧ adf limits frames data = .ok v := by
  obtain ⟨hrecognised, hv⟩ := validated_as h hstate
  rcases hformat with hformat | hformat <;> rw [hformat] at hrecognised hv
  · exact .inl ⟨hrecognised, hv⟩
  · exact .inr ⟨hrecognised, hv⟩

/-- The validator and the enumerator agree exactly on the images that have what only the enumerator
asks for. -/
theorem agreement_iff (limits : StructuralLimits) (frames : ℕ) (data : Bytes) :
    Agrees limits frames data ↔
      ((∃ variant, ReportsValid limits frames data variant) → Enumerable frames data) := by
  unfold Enumerable
  constructor
  · rintro hagrees ⟨variant, hvalid⟩
    have himage := hagrees variant hvalid
    obtain ⟨hnodes, v, hv, hformat, hstate, rfl⟩ := hvalid
    rcases validate_cases hv hformat hstate with ⟨hfat, hok⟩ | ⟨hadf, hok⟩
    · obtain ⟨final, hfinal⟩ := fat_valid_iff.1 ⟨v, hok, hstate⟩
      rw [(fat_variant hok).2] at himage
      rw [hfat]
      exact (fat_agreement_iff hfat hfinal (hnodes hfat)).1 himage
    · obtain ⟨variant, hvariant⟩ := adf_valid_iff.1 ⟨v, hok, hstate⟩
      rw [(adf_variant hok).2, dosType_of_variantOf hvariant.dosType] at himage
      rw [hadf]
      exact (adf_agreement_iff hvariant).1 himage
  · intro henumerable variant hvalid
    have h := henumerable ⟨variant, hvalid⟩
    obtain ⟨hnodes, v, hv, hformat, hstate, rfl⟩ := hvalid
    rcases validate_cases hv hformat hstate with ⟨hfat, hok⟩ | ⟨hadf, hok⟩
    · obtain ⟨final, hfinal⟩ := fat_valid_iff.1 ⟨v, hok, hstate⟩
      rw [(fat_variant hok).2]
      rw [hfat] at h
      exact (fat_agreement_iff hfat hfinal (hnodes hfat)).2 h
    · obtain ⟨variant, hvariant⟩ := adf_valid_iff.1 ⟨v, hok, hstate⟩
      rw [(adf_variant hok).2, dosType_of_variantOf hvariant.dosType]
      rw [hadf] at h
      exact (adf_agreement_iff hvariant).2 h

end Readers

/-! ### A name that only the validator takes for a dot -/

/-- A row whose short name is a blank and a dot, of a file of one byte without clusters. -/
def blankDotRow : Bytes :=
  0x20 :: 0x2E :: List.replicate 10 0x20 ++ List.replicate 16 0 ++ [1, 0, 0, 0]

/-- A volume with this row behind the one of the file `A`. -/
def blankDotVolume : Bytes :=
  Fat.oneCluster ++ Fat.oneByteRow 2 ++ blankDotRow ++ List.replicate 448 0 ++
    List.replicate 512 0x58

/-- The validator passes over the row and reports the volume as valid.  The enumerator misses the
cluster of the file. -/
theorem blank_dot_disagrees : ¬Agrees .default 1000 blankDotVolume := by
  intro h
  have hvalid : (validate .default 1000 blankDotVolume).toOption.join.any (fun v =>
      decide (v.format = .fat ∧ v.state = .valid ∧ v.variant = some FatVariant.fat12.text)) =
        true := by decide +kernel
  have hparse : parseDiskImage 1000 blankDotVolume = .error (.diskImage "missing cluster") := by
    decide +kernel
  have hfiles : ∀ row ∈ Fat.rowsOf blankDotVolume (Fat.Volume.ofBoot blankDotVolume) none,
      row.isDirectory = false := by decide +kernel
  have hroot : ∀ directory, ExaminedDirectory blankDotVolume (Fat.Volume.ofBoot blankDotVolume)
      directory → directory = none := by
    intro directory hexamined
    induction hexamined with
    | root => rfl
    | sub _ hrow hdir _ ih =>
        subst ih
        cases (hfiles _ hrow).symm.trans hdir
  have hnodes : NodesSuffice .default blankDotVolume := by
    intro _ directory hexamined content hcontent
    obtain rfl := hroot directory hexamined
    have hlen : (Fat.directoryContent blankDotVolume
        (Fat.Volume.ofBoot blankDotVolume) none).toOption.all (fun content =>
          decide ((marked content).length ≤ StructuralLimits.default.maxNodes)) = true := by
      decide +kernel
    rw [hcontent] at hlen
    exact of_decide_eq_true hlen
  cases hv : validate .default 1000 blankDotVolume with
  | error e =>
      rw [hv] at hvalid
      cases hvalid
  | ok report =>
      rw [hv] at hvalid
      cases report with
      | none => cases hvalid
      | some v =>
          obtain ⟨hformat, hstate, hvariant⟩ := of_decide_eq_true hvalid
          obtain ⟨image, himage, -⟩ := h _ ⟨hnodes, v, hv, .inl hformat, hstate, hvariant⟩
          cases hparse.symm.trans himage

end StructuralValidator

end AVBox
