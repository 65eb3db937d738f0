import AVBox.Analyzers.AdfImages
import AVBox.Analyzers.StructuralAgreement
import AVBox.Analyzers.StructuralTotal

/-!
# What the walk through an ADF image has checked

`_walk_adf` stops at the first block that is wrong.  If it goes on, the header block it has looked
at and the data blocks that the file needs have passed their checks (`adfLook_eq_ok`,
`adfFileBlocks_eq_ok`).
-/

namespace AVBox

namespace StructuralValidator

open Binary Fallible Walk

section Checks

variable {data : Bytes} {variant : AdfVariant}

/-- A block of a standard image that a pointer may refer to. -/
def IsBlock (key : ℕ) : Prop := 2 ≤ key ∧ key < Adf.blocks

variable (data variant) in
/-- The data blocks that a file of the size needs, `total` bytes of which are accounted for. -/
def neededBlocks (wanted : ℕ) : List ℕ → ℕ → List ℕ
  | [], _ => []
  | pointer :: rest, total =>
      let total := total +
        if variant = .ofs then be32 (Adf.blockAt data pointer) 12 else 512
      pointer :: if total ≥ wanted then [] else neededBlocks wanted rest total

variable (data variant) in
/-- The data blocks that the file with this header block uses. -/
def usedBlocks (key : ℕ) : List ℕ :=
  let header := Adf.blockAt data key
  neededBlocks data variant (be32 header 324) (Adf.pointers header) 0

lemma isBlock_of_block {key : ℕ} {block : Bytes} (h : Adf.block data key = .ok block) :
    IsBlock key ∧ block = Adf.blockAt data key := by
  obtain ⟨hkey, rfl⟩ := block_eq_ok.1 h
  rw [not_or, Nat.not_lt, Nat.not_le] at hkey
  exact ⟨hkey, rfl⟩

/-- What the loop over the data blocks of a file has checked. -/
structure BlocksChecked (data : Bytes) (variant : AdfVariant) (seen used : List ℕ) : Prop where
  nodup : used.Nodup
  fresh : ∀ pointer ∈ used, pointer ∉ seen
  inside : ∀ pointer ∈ used, IsBlock pointer
  sound : variant = .ofs → ∀ pointer ∈ used, Adf.blockChecksum (Adf.blockAt data pointer) = true

lemma adfFileBlocks_eq_ok {key wanted : ℕ} {pointers : List ℕ} {total : ℕ}
    {state state' : AdfState}
    (h : adfFileBlocks data variant key wanted pointers total state = .ok state') :
    state' = ⟨state.nodes,
        (neededBlocks data variant wanted pointers total).reverse ++ state.seen⟩ ∧
      BlocksChecked data variant state.seen (neededBlocks data variant wanted pointers total) := by
  induction pointers generalizing total state with
  | nil =>
      rw [adfFileBlocks] at h
      split at h
      · cases h
      · obtain rfl := Except.ok.inj h
        exact ⟨rfl, List.nodup_nil, by simp [neededBlocks], by simp [neededBlocks],
          by simp [neededBlocks]⟩
  | cons pointer rest ih =>
      rw [adfFileBlocks] at h
      split at h
      · cases h
      next hfresh =>
      simp only [] at h
      obtain ⟨payload, hblock, h⟩ := bind_eq_ok.1 h
      obtain ⟨hinside, rfl⟩ := isBlock_of_block hblock
      split at h
      · cases h
      next hchecked =>
      have hsound : variant = .ofs → Adf.blockChecksum (Adf.blockAt data pointer) = true := by
        intro hofs
        rw [← Bool.not_eq_false]
        exact fun hsum => hchecked ⟨hofs, .inr (.inr (.inr hsum))⟩
      simp only [neededBlocks]
      generalize (total + if variant = .ofs then be32 (Adf.blockAt data pointer) 12 else 512) =
        total' at h ⊢
      split at h
      · next hlong =>
          obtain rfl := Except.ok.inj h
          rw [if_pos hlong]
          refine ⟨rfl, List.nodup_singleton _, ?_, ?_, fun hofs => ?_⟩
          · exact List.forall_mem_singleton.2 hfresh
          · exact List.forall_mem_singleton.2 hinside
          · exact List.forall_mem_singleton.2 (hsound hofs)
      · next hmore =>
          rw [if_neg hmore]
          obtain ⟨hstate', hrest⟩ := ih h
          simp only [] at hstate' hrest
          refine ⟨by simp [hstate'], List.nodup_cons.2 ⟨fun hmem => ?_, hrest.nodup⟩,
            ?_, ?_, fun hofs => ?_⟩
          · exact hrest.fresh pointer hmem List.mem_cons_self
          · refine List.forall_mem_cons.2 ⟨hfresh, fun other hother hseen => ?_⟩
            exact hrest.fresh other hother (List.mem_cons_of_mem _ hseen)
          · exact List.forall_mem_cons.2 ⟨hinside, hrest.inside⟩
          · exact List.forall_mem_cons.2 ⟨hsound hofs, hrest.sound hofs⟩

/-- What `walk` does with a header block that has passed its checks. -/
inductive HeaderTurn (data : Bytes) (variant : AdfVariant) (state : AdfState) (key : ℕ) :
    Turn AdfState ℕ → Prop
  | directory : Adf.signedBe32 (Adf.blockAt data key) 508 = 2 →
      HeaderTurn data variant state key (.enter state (Adf.keys data (Adf.blockAt data key)))
  | file {state' : AdfState} : Adf.signedBe32 (Adf.blockAt data key) 508 = -3 →
      adfFileBlocks data variant key (be32 (Adf.blockAt data key) 324)
        (Adf.pointers (Adf.blockAt data key)) 0 state = .ok state' →
      HeaderTurn data variant state key (.stay state')
  | other : Adf.signedBe32 (Adf.blockAt data key) 508 ≠ 2 →
      Adf.signedBe32 (Adf.blockAt data key) 508 ≠ -3 →
      HeaderTurn data variant state key (.stay state)

/-- What the walk has checked of an entry. -/
lemma adfLook_eq_ok {maxNodes key : ℕ} {state : AdfState} {turn : Turn AdfState ℕ}
    (h : adfLook maxNodes data variant state key = .ok turn) :
    key ∉ state.seen ∧ IsBlock key ∧ Adf.blockChecksum (Adf.blockAt data key) = true ∧
      HeaderTurn data variant ⟨state.nodes + 1, key :: state.seen⟩ key turn := by
  unfold adfLook at h
  split at h
  · cases h
  split at h
  · cases h
  next hfresh =>
  simp only [] at h
  obtain ⟨header, hblock, h⟩ := bind_eq_ok.1 h
  obtain ⟨hinside, rfl⟩ := isBlock_of_block hblock
  split at h
  · cases h
  next hheader =>
  rw [not_or, Bool.not_eq_false] at hheader
  refine ⟨hfresh, hinside, hheader.2, ?_⟩
  split at h
  · next hkind =>
      obtain rfl := Except.ok.inj h
      exact .directory hkind
  · next hdir =>
      split at h
      · next hkind =>
          obtain ⟨state', hblocks, h⟩ := bind_eq_ok.1 h
          obtain rfl := Except.ok.inj h
          exact .file hkind hblocks
      · next hfile =>
          obtain rfl := Except.ok.inj h
          exact .other hdir hfile

/-- A directory whose header passes the checks is opened. -/
lemma adfLook_directory {maxNodes key : ℕ} {state : AdfState} {header : Bytes}
    (hnodes : state.nodes < maxNodes) (hnew : key ∉ state.seen)
    (hblock : Adf.block data key = .ok header) (htype : be32 header 0 = 2)
    (hsum : Adf.blockChecksum header = true) (hkind : Adf.signedBe32 header 508 = 2) :
    adfLook maxNodes data variant state key =
      .ok (.enter ⟨state.nodes + 1, key :: state.seen⟩ (Adf.keys data header)) := by
  rw [adfLook, if_neg (Nat.not_lt.2 hnodes), if_neg hnew, hblock]
  simp only [bind, Except.bind]
  rw [if_neg (by rw [htype, hsum]; decide), if_pos hkind]
  rfl

/-- The walk through an image that is reported as valid ends. -/
lemma AdfValid.done {limits : StructuralLimits} {frames : ℕ}
    (h : AdfValid limits frames data variant) :
    ∃ final, Done (adfLook limits.maxNodes data variant) frames ⟨0, [Adf.rootKey]⟩
      (Adf.keys data (Adf.blockAt data Adf.rootKey)) final := by
  obtain ⟨root, hroot, hwalk⟩ := bind_eq_ok.1 h.walk
  obtain ⟨-, rfl⟩ := block_eq_ok.1 hroot
  obtain ⟨final, hwalk, -⟩ := bind_eq_ok.1 hwalk
  exact ⟨final, walk_eq_ok_iff.1 hwalk⟩

end Checks

/-! ### Images with a given root block -/

section Rooted

/-- The boot block of an FFS image, a root block with these words, and the other blocks. -/
def rootedBlock (words : List (ℕ × ℕ)) (others : ℕ → Bytes) (key : ℕ) : Bytes :=
  if key = 0 then Adf.ofWords [(0, 0x444F5301), (1, 0xBBB0ACFE)]
  else if key = 1 then List.replicate 512 0
  else if key = Adf.rootKey then Adf.ofWords words
  else others key

/-- The image of these blocks. -/
def rootedImage (words : List (ℕ × ℕ)) (others : ℕ → Bytes) : Bytes :=
  (List.range Adf.blocks).flatMap (rootedBlock words others)

/-- The words of an empty root directory without bitmap pointers in the places that are checked. -/
structure EmptyRoot (words : List (ℕ × ℕ)) : Prop where
  type : Adf.wordAt words 0 = 2
  kind : Adf.wordAt words 127 = 1
  checksum : Adf.blockChecksum (Adf.ofWords words) = true
  table : ∀ i < 72, Adf.wordAt words (6 + i) = 0
  bitmap : ∀ i < 24, Adf.wordAt words (79 + i) = 0

variable {words : List (ℕ × ℕ)} {others : ℕ → Bytes} (hothers : ∀ key, (others key).length = 512)

include hothers

lemma length_rootedBlock (key : ℕ) : (rootedBlock words others key).length = 512 := by
  unfold rootedBlock
  split_ifs <;> simp only [Adf.length_ofWords, List.length_replicate, hothers]

lemma length_rootedImage : (rootedImage words others).length = Adf.standardSize := by
  rw [rootedImage, length_flatMap_range (length_rootedBlock hothers)]
  rfl

lemma blockAt_rootedImage {key : ℕ} (hkey : key < Adf.blocks) :
    Adf.blockAt (rootedImage words others) key = rootedBlock words others key := by
  rw [Adf.blockAt, rootedImage, Nat.succ_mul,
    block_flatMap_range (length_rootedBlock hothers) hkey]

lemma blockAt_rooted_root :
    Adf.blockAt (rootedImage words others) Adf.rootKey = Adf.ofWords words := by
  rw [blockAt_rootedImage hothers (by decide)]
  rfl

lemma blockAt_rooted_other {key : ℕ} (hkey : IsBlock key) (hroot : key ≠ Adf.rootKey) :
    Adf.blockAt (rootedImage words others) key = others key := by
  have hinside := hkey.1
  rw [blockAt_rootedImage hothers hkey.2, rootedBlock, if_neg (by omega), if_neg (by omega),
    if_neg hroot]

omit hothers in
lemma take_boot (data : Bytes) :
    data.take 1024 = Adf.blockAt data 0 ++ Adf.blockAt data 1 :=
  slice_split data (show 0 ≤ 512 by decide) (show 512 ≤ 1024 by decide)

/-- The words of the boot block and the checksum of them. -/
lemma rooted_boot : amigaBootChecksum ((rootedImage words others).take 1024) = true := by
  set boot : List (ℕ × ℕ) := [(0, 0x444F5301), (1, 0xBBB0ACFE)] with hboot'
  have hboot : (rootedImage words others).take 1024 =
      Adf.ofWords boot ++ List.replicate 512 0 := by
    rw [take_boot, blockAt_rootedImage hothers (by decide), blockAt_rootedImage hothers (by decide),
      rootedBlock, rootedBlock, if_pos rfl, if_neg Nat.one_ne_zero, if_pos rfl]
  have hword : ∀ i ∈ List.range 256, be32 (Adf.ofWords boot ++ List.replicate 512 0) (4 * i) =
      Adf.wordAt boot i := by
    intro i hi
    rw [List.mem_range] at hi
    have hsmall : Adf.wordAt boot i < 2 ^ 32 := by
      simp only [hboot', Adf.wordAt, List.lookup_cons, List.lookup_nil]
      split
      · decide
      · split <;> decide
    by_cases hfirst : i < 128
    · rw [be32, slice_append_left (by rw [Adf.length_ofWords]; omega), ← be32,
        Adf.be32_ofWords boot hfirst, Nat.mod_eq_of_lt hsmall]
    · have hzero : Adf.wordAt boot i = 0 := by
        simp only [hboot', Adf.wordAt, List.lookup_cons, List.lookup_nil,
          beq_false_of_ne (show i ≠ 0 by omega), beq_false_of_ne (show i ≠ 1 by omega)]
        rfl
      rw [be32, slice_append_right (by rw [Adf.length_ofWords]; omega), Adf.length_ofWords,
        slice_replicate (by omega), hzero, show 4 * i + 4 - 512 - (4 * i - 512) = 4 by omega]
      rfl
  have hlength : (Adf.ofWords boot ++ List.replicate 512 0).length = 1024 := by
    rw [List.length_append, Adf.length_ofWords, List.length_replicate]
  rw [hboot, amigaBootChecksum, if_neg (not_not.2 hlength),
    List.foldl_ext _ (fun total i =>
      let sum := (total + Adf.wordAt boot i) % 2 ^ 32
      if sum < total then (sum + 1) % 2 ^ 32 else sum) 0
      fun total i hi => by simp only [hword i hi]]
  decide +kernel

omit hothers in
lemma variantOf_of_head {data : Bytes} (hsize : data.length = Adf.standardSize)
    (hhead : data.take 4 = ascii "DOS" ++ [1]) : Adf.variantOf data = some .ffs := by
  have hdos : data.take 3 = ascii "DOS" := by
    rw [show (3 : ℕ) = min 3 4 from rfl, ← List.take_take, hhead]
    rfl
  have htype : u8 data 3 = 1 := by
    have hget : (data.take 4).getD 3 0 = data.getD 3 0 := by
      simp only [List.getD_eq_getElem?_getD, List.getElem?_take_of_lt (show 3 < 4 by decide)]
    rw [u8, ← hget, hhead]
    rfl
  rw [Adf.variantOf, if_neg (not_or.2 ⟨not_not.2 hsize, not_not.2 hdos⟩), htype]
  rfl

lemma rooted_head : (rootedImage words others).take 4 = ascii "DOS" ++ [1] := by
  have hfour : ∀ data : Bytes, data.take 4 = (Adf.blockAt data 0).take 4 := fun data =>
    (take_slice data (show 0 + 4 ≤ 512 by decide)).symm
  rw [hfour, blockAt_rootedImage hothers (by decide), rootedBlock, if_pos rfl]
  decide +kernel

lemma rooted_variant : Adf.variantOf (rootedImage words others) = some .ffs :=
  variantOf_of_head (length_rootedImage hothers) (rooted_head hothers)

omit hothers in
/-- A directory whose hash table is empty behind the first place. -/
lemma keys_ofWords {data : Bytes} {words : List (ℕ × ℕ)}
    (hempty : ∀ i < 71, Adf.wordAt words (7 + i) % 2 ^ 32 = 0) :
    Adf.keys data (Adf.ofWords words) =
      Adf.chainKeys data Adf.blocks (Adf.wordAt words 6 % 2 ^ 32) := by
  have hbucket : ∀ i < 72, be32 (Adf.ofWords words) (24 + i * 4) =
      Adf.wordAt words (6 + i) % 2 ^ 32 := by
    intro i hi
    rw [show 24 + i * 4 = 4 * (6 + i) by omega, Adf.be32_ofWords words (by omega)]
  have hrest : ((List.range 71).map Nat.succ).flatMap (fun bucket =>
      Adf.chainKeys data Adf.blocks (be32 (Adf.ofWords words) (24 + bucket * 4))) = [] := by
    rw [List.flatMap_eq_nil_iff]
    intro bucket hmem
    obtain ⟨i, hi, rfl⟩ := List.mem_map.1 hmem
    rw [List.mem_range] at hi
    rw [hbucket _ (by omega), show 6 + Nat.succ i = 7 + i by omega, hempty i hi,
      Adf.chainKeys_zero]
  rw [Adf.keys, List.range_succ_eq_map, List.flatMap_cons, hrest, List.append_nil,
    hbucket 0 (by decide)]

omit hothers in
lemma bitmapKeys_ofWords (hroot : EmptyRoot words) : bitmapKeys (Adf.ofWords words) = [] := by
  rw [bitmapKeys, List.filter_eq_nil_iff]
  intro key hkey
  obtain ⟨i, hi, rfl⟩ := List.mem_map.1 hkey
  rw [List.mem_range] at hi
  rw [Adf.be32_of_word (hroot.bitmap i hi) (by decide) (show 79 + i < 128 by omega) (by omega)]
  decide

/-- With an empty root directory the image is valid. -/
lemma rooted_valid (hroot : EmptyRoot words) :
    AdfValid .default 1000 (rootedImage words others) .ffs := by
  refine
    { size := length_rootedImage hothers
      boot := rooted_boot hothers
      dosType := rooted_variant hothers
      root := ?_
      checksum := ?_
      bitmap := ?_
      walk := ?_ }
  · have hkind : be32 (Adf.ofWords words) 508 = 1 :=
      Adf.be32_of_word hroot.kind (by decide) (by decide) (by decide)
    rw [blockAt_rooted_root hothers, Adf.signedBe32]
    simp only [hkind]
    exact ⟨Adf.be32_of_word hroot.type (by decide) (by decide) (by decide), by decide⟩
  · rw [blockAt_rooted_root hothers]
    exact hroot.checksum
  · rw [blockAt_rooted_root hothers, bitmapKeys_ofWords hroot, List.filterMap_nil]
  · have hkeys : ∀ data, Adf.keys data (Adf.ofWords words) = [] := by
      intro data
      rw [keys_ofWords fun i hi => ?_]
      · rw [hroot.table 0 (by decide), Nat.zero_mod, Adf.chainKeys_zero]
      · rw [show 7 + i = 6 + (i + 1) by omega, hroot.table (i + 1) (by omega), Nat.zero_mod]
    rw [walkAdf_eq, blockAt_rooted_root hothers, hkeys]
    rfl

/-- It is reported as valid. -/
lemma rooted_reported (hroot : EmptyRoot words) : ∃ v,
    validate .default 1000 (rootedImage words others) = .ok (some v) ∧ v.format = .adf ∧
      v.state = .valid := by
  obtain ⟨v, hv, hstate⟩ := adf_valid_iff.2 ⟨_, rooted_valid hothers hroot⟩
  have hrecognised : recognised (rootedImage words others) = some .adf := by
    have hdos : ((rootedImage words others).take 65536).take 3 = ascii "DOS" := by
      rw [List.take_take, show min 3 65536 = min 3 4 from rfl, ← List.take_take,
        rooted_head hothers]
      rfl
    unfold recognised
    simp only []
    rw [if_pos hdos]
  refine ⟨v, ?_, (adf_variant hv).1, hstate⟩
  unfold validate
  rw [hrecognised]
  simp only []
  rw [length_rootedImage hothers, if_neg (by decide), hv]
  rfl

end Rooted

end StructuralValidator

end AVBox
