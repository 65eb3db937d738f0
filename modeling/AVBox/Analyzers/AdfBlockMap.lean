import AVBox.Analyzers.AdfChecks

/-!
# The block map of a valid ADF image

The validator has come to each header block and each data block of a valid image only once, and to
blocks of the image only (`taken_of_done`).  Of the 25 bitmap pointers in the root block it looks at
24, and it compares none of them with the other blocks or with each other.  So the blocks of a valid
image are a consistent map exactly when its bitmap pointers keep apart (`consistent_map_iff`).
-/

namespace AVBox

namespace StructuralValidator

open Binary Fallible Walk

/-- All bitmap pointers of a root block. -/
def bitmapSlots (root : Bytes) : List ℕ :=
  ((List.range 25).map fun i => be32 root (316 + 4 * i)).filter (· ≠ 0)

section BlockMap

variable {data : Bytes} {variant : AdfVariant}

/-- The header blocks of directories and files that the keys lead to, and the data blocks of the
files. -/
inductive Takes (data : Bytes) (variant : AdfVariant) : List ℕ → List ℕ → Prop
  | nil : Takes data variant [] []
  | directory {key : ℕ} {rest inner after : List ℕ} :
      Adf.signedBe32 (Adf.blockAt data key) 508 = 2 →
      Takes data variant (Adf.keys data (Adf.blockAt data key)) inner →
      Takes data variant rest after → Takes data variant (key :: rest) (key :: (inner ++ after))
  | file {key : ℕ} {rest after : List ℕ} : Adf.signedBe32 (Adf.blockAt data key) 508 = -3 →
      Takes data variant rest after →
      Takes data variant (key :: rest) (key :: (usedBlocks data variant key ++ after))
  | other {key : ℕ} {rest after : List ℕ} : Adf.signedBe32 (Adf.blockAt data key) 508 ≠ 2 →
      Adf.signedBe32 (Adf.blockAt data key) 508 ≠ -3 → Takes data variant rest after →
      Takes data variant (key :: rest) after

/-- The keys lead to these blocks only. -/
lemma Takes.unique {keys blocks blocks' : List ℕ} (h : Takes data variant keys blocks)
    (h' : Takes data variant keys blocks') : blocks = blocks' := by
  induction h generalizing blocks' with
  | nil =>
      cases h'
      rfl
  | directory hkind _ _ hinner hafter =>
      cases h' with
      | directory _ hinner' hafter' => rw [hinner hinner', hafter hafter']
      | file hfile _ => exact absurd (hkind.symm.trans hfile) (by decide)
      | other hdir _ _ => exact absurd hkind hdir
  | file hkind _ hafter =>
      cases h' with
      | directory hdir _ _ => exact absurd (hkind.symm.trans hdir) (by decide)
      | file _ hafter' => rw [hafter hafter']
      | other _ hfile _ => exact absurd hkind hfile
  | other hdir hfile _ hafter =>
      cases h' with
      | directory hkind _ _ => exact absurd hkind hdir
      | file hkind _ => exact absurd hkind hfile
      | other _ _ hafter' => exact hafter hafter'

/-- Blocks that the walk has come to on its way from one set of seen blocks to another. -/
structure CameTo (before after blocks : List ℕ) : Prop where
  nodup : blocks.Nodup
  fresh : ∀ block ∈ blocks, block ∉ before
  inside : ∀ block ∈ blocks, IsBlock block
  seen : ∀ block ∈ blocks, block ∈ after

/-- What the walk comes to on two parts of its way. -/
lemma CameTo.append {before middle after first rest : List ℕ} (h : CameTo before middle first)
    (hrest : CameTo middle after rest) (hbefore : before ⊆ middle) (hmiddle : middle ⊆ after) :
    CameTo before after (first ++ rest) where
  nodup := by
    refine List.nodup_append.2 ⟨h.nodup, hrest.nodup, fun block hfirst other hother heq => ?_⟩
    subst heq
    exact hrest.fresh block hother (h.seen block hfirst)
  fresh := List.forall_mem_append.2
    ⟨h.fresh, fun block hblock hmem => hrest.fresh block hblock (hbefore hmem)⟩
  inside := List.forall_mem_append.2 ⟨h.inside, hrest.inside⟩
  seen := List.forall_mem_append.2 ⟨fun block hblock => hmiddle (h.seen block hblock), hrest.seen⟩

lemma CameTo.single {before : List ℕ} {key : ℕ} (hfresh : key ∉ before) (hinside : IsBlock key) :
    CameTo before (key :: before) [key] :=
  ⟨List.nodup_singleton _, List.forall_mem_singleton.2 hfresh, List.forall_mem_singleton.2 hinside,
    List.forall_mem_singleton.2 List.mem_cons_self⟩

lemma CameTo.used {before used : List ℕ} (h : BlocksChecked data variant before used) :
    CameTo before (used.reverse ++ before) used :=
  ⟨h.nodup, h.fresh, h.inside, fun _ hblock =>
    List.mem_append_left _ (List.mem_reverse.2 hblock)⟩

/-- The walk has come to the blocks that its keys lead to. -/
lemma taken_of_done {maxNodes frames : ℕ} {state final : AdfState} {keys : List ℕ}
    (h : Done (adfLook maxNodes data variant) frames state keys final) :
    state.seen ⊆ final.seen ∧
      ∃ blocks, Takes data variant keys blocks ∧ CameTo state.seen final.seen blocks := by
  induction h with
  | nil => exact ⟨List.Subset.refl _, [], .nil, List.nodup_nil, by simp, by simp, by simp⟩
  | @stay _ state state' final key rest hlook _ ih =>
      obtain ⟨hseen, after, htakes, hcame⟩ := ih
      obtain ⟨hfresh, hinside, -, hturn⟩ := adfLook_eq_ok hlook
      have hkey := CameTo.single hfresh hinside
      cases hturn with
      | file hkind hblocks =>
          obtain ⟨rfl, hchecked⟩ := adfFileBlocks_eq_ok hblocks
          have hused := CameTo.used hchecked
          have hbefore : state.seen ⊆ (usedBlocks data variant key).reverse ++ key :: state.seen :=
            fun block hblock => List.mem_append_right _ (List.mem_cons_of_mem _ hblock)
          refine ⟨List.Subset.trans hbefore hseen, _, .file hkind htakes, ?_⟩
          have hfile := hkey.append hused (List.subset_cons_self _ _)
            (List.subset_append_right _ _)
          exact hfile.append hcame hbefore hseen
      | other hdir hfile =>
          refine ⟨List.Subset.trans (List.subset_cons_self _ _) hseen, _,
            .other hdir hfile htakes, hcame.nodup, fun block hblock hmem => ?_, hcame.inside,
            hcame.seen⟩
          exact hcame.fresh block hblock (List.mem_cons_of_mem _ hmem)
  | @enter _ state state' inside final key inner rest hlook _ _ ihinner ihrest =>
      obtain ⟨hseenInner, inner, htakesInner, hinner⟩ := ihinner
      obtain ⟨hseenRest, after, htakesRest, hrest⟩ := ihrest
      obtain ⟨hfresh, hinside, -, hturn⟩ := adfLook_eq_ok hlook
      cases hturn with
      | directory hkind =>
          have hkey := CameTo.single hfresh hinside
          have hbefore : state.seen ⊆ inside.seen :=
            List.Subset.trans (List.subset_cons_self _ _) hseenInner
          refine ⟨List.Subset.trans hbefore hseenRest, _,
            .directory hkind htakesInner htakesRest, ?_⟩
          have hdirectory := hkey.append hinner (List.subset_cons_self _ _) hseenInner
          exact hdirectory.append hrest hbefore hseenRest

/-- The bitmap pointers refer to blocks with a right checksum, and the root block, the bitmap
blocks, the header blocks and the data blocks are different blocks of the image. -/
structure ConsistentMap (data : Bytes) (variant : AdfVariant) : Prop where
  bitmap : ∀ key ∈ bitmapSlots (Adf.blockAt data Adf.rootKey),
    key < Adf.blocks ∧ Adf.blockChecksum (Adf.blockAt data key) = true
  distinct : ∃ taken, Takes data variant (Adf.keys data (Adf.blockAt data Adf.rootKey)) taken ∧
    (Adf.rootKey :: (bitmapSlots (Adf.blockAt data Adf.rootKey) ++ taken)).Nodup ∧
    ∀ key ∈ Adf.rootKey :: (bitmapSlots (Adf.blockAt data Adf.rootKey) ++ taken), IsBlock key

/-- What the validator does not check of the bitmap pointers. -/
structure BitmapApart (data : Bytes) (variant : AdfVariant) : Prop where
  /-- The last pointer is not used, or refers to a block with a right checksum. -/
  last : be32 (Adf.blockAt data Adf.rootKey) 412 = 0 ∨
    bitmapFinding data (be32 (Adf.blockAt data Adf.rootKey) 412) = none
  nodup : (bitmapSlots (Adf.blockAt data Adf.rootKey)).Nodup
  /-- None refers to the boot block, the root block, or a block of the directories and files. -/
  apart : ∀ key ∈ bitmapSlots (Adf.blockAt data Adf.rootKey), key ≠ 1 ∧ key ≠ Adf.rootKey ∧
    ∀ taken, Takes data variant (Adf.keys data (Adf.blockAt data Adf.rootKey)) taken → key ∉ taken

lemma bitmapFinding_eq_none {key : ℕ} : bitmapFinding data key = none ↔
    key < Adf.blocks ∧ Adf.blockChecksum (Adf.blockAt data key) = true := by
  unfold bitmapFinding
  split
  · next hout => exact iff_of_false (fun h => by cases h) fun h => absurd h.1 (Nat.not_lt.2 hout)
  · next hin =>
      split
      · next hsum =>
          rw [hsum]
          exact iff_of_false (fun h => by cases h) fun h => Bool.false_ne_true h.2
      · next hsum =>
          exact iff_of_true rfl ⟨Nat.not_le.1 hin, Bool.eq_true_of_not_eq_false hsum⟩

/-- The pointers are those that the validator looks at, and the last one. -/
lemma bitmapSlots_eq (root : Bytes) :
    bitmapSlots root = bitmapKeys root ++ [be32 root 412].filter (· ≠ 0) := by
  rw [bitmapSlots, bitmapKeys, List.range_succ, List.map_append, List.filter_append,
    List.map_singleton]

lemma mem_bitmapSlots {root : Bytes} {key : ℕ} :
    key ∈ bitmapSlots root ↔ key ∈ bitmapKeys root ∨ key = be32 root 412 ∧ key ≠ 0 := by
  rw [bitmapSlots_eq, List.mem_append, List.mem_filter, List.mem_singleton, decide_eq_true_eq]

/-- The blocks of an image that is reported as valid are a consistent map exactly when its bitmap
pointers keep apart. -/
theorem consistent_map_iff {limits : StructuralLimits} {frames : ℕ} {v : StructuralValidation}
    (h : validate limits frames data = .ok (some v)) (hformat : v.format = .adf)
    (hstate : v.state = .valid) (hvariant : Adf.variantOf data = some variant) :
    ConsistentMap data variant ↔ BitmapApart data variant := by
  obtain ⟨-, hv⟩ := validated_as h hstate
  rw [hformat] at hv
  obtain ⟨variant', hvalid⟩ := adf_valid_iff.1 ⟨v, hv, hstate⟩
  obtain rfl : variant' = variant := Option.some.inj (hvalid.dosType.symm.trans hvariant)
  obtain ⟨final, hdone⟩ := hvalid.done
  obtain ⟨-, taken, htakes, hcame⟩ := taken_of_done hdone
  constructor
  · rintro ⟨hbitmap, taken', htakes', hnodup, hinside⟩
    obtain ⟨hroot, hnodup⟩ := List.nodup_cons.1 hnodup
    obtain ⟨hslots, -, hdisjoint⟩ := List.nodup_append.1 hnodup
    obtain ⟨-, hinside⟩ := List.forall_mem_cons.1 hinside
    refine ⟨?_, hslots, fun key hkey => ⟨?_, ?_, fun other hother hmem => ?_⟩⟩
    · by_cases hzero : be32 (Adf.blockAt data Adf.rootKey) 412 = 0
      · exact .inl hzero
      · exact .inr (bitmapFinding_eq_none.2 (hbitmap _ (mem_bitmapSlots.2 (.inr ⟨rfl, hzero⟩))))
    · have hlow := (hinside key (List.mem_append_left _ hkey)).1
      omega
    · rintro rfl
      exact hroot (List.mem_append_left _ hkey)
    · exact hdisjoint key hkey key (htakes'.unique hother ▸ hmem) rfl
  · rintro ⟨hlast, hslots, hapart⟩
    have hbitmap : ∀ key ∈ bitmapSlots (Adf.blockAt data Adf.rootKey),
        key < Adf.blocks ∧ Adf.blockChecksum (Adf.blockAt data key) = true := by
      intro key hkey
      rcases mem_bitmapSlots.1 hkey with hmem | ⟨rfl, hnonzero⟩
      · exact bitmapFinding_eq_none.1 (List.filterMap_eq_nil_iff.1 hvalid.bitmap key hmem)
      · exact bitmapFinding_eq_none.1 (hlast.resolve_left hnonzero)
    refine ⟨hbitmap, taken, htakes, ?_, ?_⟩
    · refine List.nodup_cons.2 ⟨fun hmem => ?_, List.nodup_append.2 ⟨hslots, hcame.nodup, ?_⟩⟩
      · rcases List.mem_append.1 hmem with hmem | hmem
        · exact (hapart _ hmem).2.1 rfl
        · exact hcame.fresh _ hmem (List.mem_singleton_self _)
      · rintro key hkey other hother rfl
        exact (hapart key hkey).2.2 taken htakes hother
    · refine List.forall_mem_cons.2 ⟨⟨by decide, by decide⟩, List.forall_mem_append.2
        ⟨fun key hkey => ⟨?_, (hbitmap key hkey).1⟩, hcame.inside⟩⟩
      have hone := (hapart key hkey).1
      have hnonzero := (List.mem_filter.1 hkey).2
      rw [decide_eq_true_eq] at hnonzero
      omega

end BlockMap

/-! ### An image with one bitmap pointer -/

section LastPointer

/-- The words of an empty root directory whose last bitmap pointer is this. -/
def lastPointerRoot (pointer : ℕ) : List (ℕ × ℕ) :=
  Adf.checked [(0, 2), (103, pointer), (127, 1)]

/-- The image with this root directory and zeros elsewhere. -/
def lastPointerImage (pointer : ℕ) : Bytes :=
  rootedImage (lastPointerRoot pointer) fun _ => List.replicate 512 0

variable {pointer : ℕ}

lemma lastPointer_empty : EmptyRoot (lastPointerRoot pointer) := by
  have hword : ∀ {i}, i ≠ 5 → i ≠ 0 → i ≠ 103 → i ≠ 127 →
      Adf.wordAt (lastPointerRoot pointer) i = 0 := by
    intro i h5 h0 h103 h127
    simp only [Adf.wordAt, lastPointerRoot, Adf.checked, List.lookup_cons, List.lookup_nil,
      beq_false_of_ne h5, beq_false_of_ne h0, beq_false_of_ne h103, beq_false_of_ne h127]
    rfl
  refine ⟨rfl, rfl, Adf.blockChecksum_checked ?_ ?_, fun i hi => ?_, fun i hi => ?_⟩
  · simp only [List.map_cons, List.map_nil]
    decide
  · simp
  · exact hword (by omega) (by omega) (by omega) (by omega)
  · exact hword (by omega) (by omega) (by omega) (by omega)

lemma lastPointer_slot (hpointer : pointer < 2 ^ 32) :
    be32 (Adf.blockAt (lastPointerImage pointer) Adf.rootKey) 412 = pointer := by
  rw [lastPointerImage, blockAt_rooted_root fun _ => List.length_replicate]
  exact Adf.be32_of_word (show Adf.wordAt (lastPointerRoot pointer) 103 = pointer from rfl) hpointer
    (by decide) (by decide)

/-- A last pointer that leaves the image goes unnoticed. -/
theorem last_pointer_unchecked : (∃ v,
      validate .default 1000 (lastPointerImage 1760) = .ok (some v) ∧ v.format = .adf ∧
        v.state = .valid) ∧
    ¬ConsistentMap (lastPointerImage 1760) .ffs := by
  refine ⟨rooted_reported (fun _ => List.length_replicate) lastPointer_empty, fun h => ?_⟩
  have hslot := @lastPointer_slot 1760 (by decide)
  refine Nat.lt_irrefl _ (h.bitmap 1760 (mem_bitmapSlots.2 (.inr ⟨hslot.symm, by decide⟩))).1

/-- An image whose last pointer refers to a bitmap block is a consistent map. -/
theorem last_pointer_consistent :
    bitmapSlots (Adf.blockAt (lastPointerImage 881) Adf.rootKey) = [881] ∧
      ConsistentMap (lastPointerImage 881) .ffs := by
  obtain ⟨v, hv, hformat, hstate⟩ : ∃ v, validate .default 1000 (lastPointerImage 881) =
      .ok (some v) ∧ v.format = .adf ∧ v.state = .valid :=
    rooted_reported (fun _ => List.length_replicate) lastPointer_empty
  have hroot : Adf.blockAt (lastPointerImage 881) Adf.rootKey =
      Adf.ofWords (lastPointerRoot 881) := blockAt_rooted_root fun _ => List.length_replicate
  have hslot := @lastPointer_slot 881 (by decide)
  have hslots : bitmapSlots (Adf.blockAt (lastPointerImage 881) Adf.rootKey) = [881] := by
    rw [bitmapSlots_eq, hslot, hroot, bitmapKeys_ofWords lastPointer_empty]
    rfl
  have hkeys : Adf.keys (lastPointerImage 881)
      (Adf.blockAt (lastPointerImage 881) Adf.rootKey) = [] := by
    rw [hroot, keys_ofWords fun i hi => ?_, show Adf.wordAt (lastPointerRoot 881) 6 = 0 from rfl]
    · rfl
    · rw [show 7 + i = 6 + (i + 1) by omega, lastPointer_empty.table (i + 1) (by omega)]
      rfl
  have hfound : bitmapFinding (lastPointerImage 881) 881 = none := by
    refine bitmapFinding_eq_none.2 ⟨by decide, ?_⟩
    rw [lastPointerImage, blockAt_rooted_other (fun _ => List.length_replicate)
      ⟨by decide, by decide⟩ (by decide)]
    decide +kernel
  refine ⟨hslots, (consistent_map_iff hv hformat hstate
    (rooted_variant fun _ => List.length_replicate)).2 ⟨.inr ?_, ?_, ?_⟩⟩
  · rw [hslot]
    exact hfound
  · rw [hslots]
    exact List.nodup_singleton 881
  · rw [hslots, hkeys]
    intro key hkey
    obtain rfl := List.mem_singleton.1 hkey
    refine ⟨by decide, by decide, fun taken htaken => ?_⟩
    cases htaken
    exact List.not_mem_nil

end LastPointer

end StructuralValidator

end AVBox
