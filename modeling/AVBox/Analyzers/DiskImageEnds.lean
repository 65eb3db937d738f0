import AVBox.Analyzers.DiskReads

/-!
# How reading a disk image ends

Neither reader makes a read past a buffer or goes round in a loop for ever, whatever the pointers
in the file are.  Each directory takes a call frame, however, and no limit is set to their nesting:
`ends_cleanly_iff` says that something other than `DiskImageError` is raised exactly when the walk
through a volume has more directories open than there are call frames.
-/

namespace AVBox

open Binary Fallible Walk

namespace Adf

section Raises

variable {data : Bytes} {variant : AdfVariant}

lemma raises_bstr {value : Bytes} {offset : ℕ} : Raises IsDiskImage (bstr value offset) :=
  .ite (fun _ => .error rfl) fun _ => .ok _

lemma raises_payload {headerKey : ℕ} {value : Bytes} :
    Raises IsDiskImage (payload variant headerKey value) := by
  cases variant with
  | ffs => exact .ok _
  | ofs => exact .ite (fun _ => .error rfl) fun _ => .ite (fun _ => .error rfl) fun _ => .ok _

lemma raises_fileBlocks {headerKey size : ℕ} {keys seen : List ℕ} {out : Bytes} :
    Raises IsDiskImage (fileBlocks data variant headerKey size keys seen out) := by
  induction keys generalizing seen out with
  | nil => exact .ite (fun _ => .error rfl) fun _ => .ok _
  | cons key rest ih =>
      refine .ite (fun _ => .error rfl) fun _ => .bind raises_block fun value _ => ?_
      exact .bind raises_payload fun content _ => .ite (fun _ => .ok _) fun _ => ih

lemma raises_look {state : WalkState} {item : Item} :
    Raises IsDiskImage (look data variant state item) := by
  refine .ite (fun _ => .error rfl) fun _ => .bind raises_block fun header _ => ?_
  refine .ite (fun _ => .error rfl) fun _ => .bind raises_bstr fun name _ => ?_
  refine .ite (fun _ => .error rfl) fun _ => .ite (fun _ => .ok _) fun _ => ?_
  exact .ite (fun _ => .bind raises_fileBlocks fun content _ => .ok _) fun _ => .error rfl

end Raises

/-- The root block of a standard image. -/
def rootBlock (data : Bytes) : Bytes := blockAt data rootKey

/-- The file has the root block of a volume of this variant. -/
structure HasRoot (data : Bytes) (variant : AdfVariant) : Prop where
  variant : variantOf data = some variant
  type : be32 (rootBlock data) 0 = 2
  kind : signedBe32 (rootBlock data) 508 = 1
  checksum : blockChecksum (rootBlock data) = true

/-- The walk never has more drawers open than there are call frames. -/
def Shallow (data : Bytes) (variant : AdfVariant) (frames : ℕ) : Prop :=
  OpenAtMost (look data variant) frames ⟨[], [rootKey]⟩ (listing data [] (rootBlock data))

end Adf

namespace DiskReads

/-- The reader ends, and raises nothing but `DiskImageError`. -/
def EndsCleanly (parse : ℕ → Except Exc (Option DiskImage)) : Prop :=
  ∃ enough, ∀ steps ≥ enough, Raises IsDiskImage (parse steps)

/-- The walks through the volume in the file have the call frames they need. -/
structure NestsWithin (frames : ℕ) (data : Bytes) : Prop where
  fat : ∀ vol, Fat.volume data = some vol → Fat.Shallow data vol frames
  adf : ∀ variant, Adf.HasRoot data variant → Adf.Shallow data variant frames

section Ends

variable (frames : ℕ) (data : Bytes)

lemma endsCleanly_parseFat : EndsCleanly (fun steps => parseFat frames steps data) ↔
    Raises IsDiskImage (Fat.parse frames data) := by
  obtain ⟨enough, hparse⟩ := parseFat_eq frames data
  constructor
  · rintro ⟨enough', hends⟩
    rw [← hparse _ (Nat.le_max_left enough enough')]
    exact hends _ (Nat.le_max_right enough enough')
  · intro h
    refine ⟨enough, fun steps hsteps => ?_⟩
    simp only [hparse steps hsteps]
    exact h

lemma endsCleanly_parseAdf : EndsCleanly (fun steps => parseAdf frames steps data) ↔
    Raises IsDiskImage (Adf.parse frames data) := by
  constructor
  · rintro ⟨enough, hends⟩
    rw [← parseAdf_eq frames (Nat.lt_of_lt_of_le (Nat.lt_succ_self _) (Nat.le_max_left _ enough))]
    exact hends _ (Nat.le_max_right (Adf.blocks + 1) enough)
  · intro h
    refine ⟨Adf.blocks + 1, fun steps hsteps => ?_⟩
    simp only [parseAdf_eq frames hsteps]
    exact h

/-- The FAT reader fails otherwise only where it runs out of call frames. -/
lemma raises_parseFat_iff : Raises IsDiskImage (Fat.parse frames data) ↔
    ∀ vol, Fat.volume data = some vol → Fat.Shallow data vol frames := by
  unfold Fat.parse
  cases hvolume : Fat.volume data with
  | none => exact iff_of_true (.ok _) fun _ h => by cases h
  | some vol =>
      simp only [Option.some.injEq, forall_eq']
      rcases @Fat.enumerate_cases data vol frames with
        ⟨found, hok, -, hshallow, -⟩ | ⟨e, he, hkind, -, hshallow⟩ | ⟨he, hshallow⟩
      · rw [hok]
        exact iff_of_true (.ok _) hshallow
      · rw [he]
        exact iff_of_true (.error hkind) hshallow
      · rw [he]
        refine iff_of_false (fun h => ?_) hshallow
        cases h _ rfl

/-- How the walk from the root drawer ends. -/
lemma raises_adfWalk_iff (variant : AdfVariant) :
    Raises IsDiskImage (walk Exc.tooDeep (Adf.look data variant) frames ⟨[], [Adf.rootKey]⟩
        (Adf.listing data [] (Adf.rootBlock data))) ↔ Adf.Shallow data variant frames := by
  have hdeep := @walk_eq_deep_iff _ _ _ Exc.tooDeep (Adf.look data variant)
    (fun state item h => by cases Adf.raises_look _ h) frames ⟨[], [Adf.rootKey]⟩
    (Adf.listing data [] (Adf.rootBlock data))
  constructor
  · intro h
    by_contra hopen
    cases h _ (hdeep.2 hopen)
  · intro hshallow e he
    rcases @error_cases _ _ _ Exc.tooDeep (Adf.look data variant) (fun _ => True)
      (fun _ _ _ _ => trivial) frames _ _ e (fun _ _ => trivial) he with
      ⟨state, item, -, hfail⟩ | ⟨-, hopen⟩
    · exact Adf.raises_look _ hfail
    · exact absurd hshallow hopen

/-- The ADF reader fails otherwise only where it runs out of call frames. -/
lemma raises_parseAdf_iff : Raises IsDiskImage (Adf.parse frames data) ↔
    ∀ variant, Adf.HasRoot data variant → Adf.Shallow data variant frames := by
  unfold Adf.parse
  cases hvariant : Adf.variantOf data with
  | none => exact iff_of_true (.ok _) fun _ h => by cases hvariant.symm.trans h.variant
  | some variant =>
      have hblock : Adf.block data Adf.rootKey = .ok (Adf.rootBlock data) := if_neg (by decide)
      simp only [hblock, bind, Except.bind]
      split
      · next hforeign =>
          refine iff_of_true (.ok _) fun _ h => ?_
          rcases hforeign with htype | hkind
          · exact absurd h.type htype
          · exact absurd h.kind hkind
      · next hroot =>
          split
          · next hchecksum =>
              refine iff_of_true (.error rfl) fun _ h => ?_
              cases hchecksum.symm.trans h.checksum
          · next hchecksum =>
              have hhas : Adf.HasRoot data variant :=
                ⟨hvariant, not_not.1 (not_or.1 hroot).1, not_not.1 (not_or.1 hroot).2,
                  Bool.eq_true_of_not_eq_false hchecksum⟩
              have honly : (∀ other, Adf.HasRoot data other → Adf.Shallow data other frames) ↔
                  Adf.Shallow data variant frames := by
                refine ⟨fun h => h _ hhas, fun h other hother => ?_⟩
                obtain rfl : variant = other := Option.some.inj (hvariant.symm.trans hother.variant)
                exact h
              rw [honly, ← raises_adfWalk_iff]
              constructor
              · intro h e he
                rw [he] at h
                exact h e rfl
              · exact fun h => h.bind fun final _ => Adf.raises_bstr.bind fun name _ => .ok _

/-- Reading a disk image ends, and raises nothing but `DiskImageError`, exactly when its directories
do not nest deeper than the call frames. -/
theorem ends_cleanly_iff (frames : ℕ) (data : Bytes) :
    EndsCleanly (fun steps => parseFat frames steps data) ∧
      EndsCleanly (fun steps => parseAdf frames steps data) ↔ NestsWithin frames data := by
  rw [endsCleanly_parseFat, endsCleanly_parseAdf, raises_parseFat_iff, raises_parseAdf_iff]
  exact ⟨fun h => ⟨h.1, h.2⟩, fun h => ⟨h.fat, h.adf⟩⟩

end Ends

/-! ### A thousand directories, each in the other -/

section Nested

/-- The boot sector of a volume of 1005 sectors with clusters of one sector, and a FAT in which
every chain ends at once. -/
def nestedHead : Bytes :=
  List.replicate 11 0 ++ [0, 2, 1, 1, 0, 1, 16, 0, 0xED, 3, 0xF8, 3, 0] ++ List.replicate 486 0 ++
    [0x55, 0xAA] ++ List.replicate 1536 0xFF

/-- The row of a directory `D`. -/
def directoryRow (start : ℕ) : Bytes :=
  0x44 :: List.replicate 10 0x20 ++ [0x10] ++ List.replicate 14 0 ++
    [UInt8.ofNat start, UInt8.ofNat (start / 256), 0, 0, 0, 0]

/-- A directory that holds a directory. -/
def nestedSector (start : ℕ) : Bytes := directoryRow start ++ List.replicate 480 0

/-- The root directory holds the one in cluster 2, that one the one in cluster 3, and so on. -/
def nestedDirectories : Bytes :=
  nestedHead ++ (List.range 1001).flatMap fun i => nestedSector (i + 2)

/-- The volume. -/
def nestedVolume : Fat.Volume := ⟨512, 1, 1, 1, 16, 1005, 3, 0⟩

/-- The row of the directory at a cluster. -/
def nestedRow (directory : Option ℕ) (head : PyStr) (start : ℕ) : Fat.Row :=
  ⟨directory, 0, directoryRow start, head, PyStr.ofString "D"⟩

lemma length_nestedHead : nestedHead.length = 2048 := by
  simp only [nestedHead, List.length_append, List.length_replicate, List.length_cons,
    List.length_nil]

lemma length_nestedSector (start : ℕ) : (nestedSector start).length = 512 := by
  simp only [nestedSector, directoryRow, List.length_append, List.length_replicate,
    List.length_cons, List.length_nil]

lemma length_nestedDirectories : nestedDirectories.length = 514560 := by
  rw [nestedDirectories, List.length_append, length_nestedHead,
    length_flatMap_range fun i => length_nestedSector (i + 2)]

lemma volume_nestedDirectories : Fat.volume nestedDirectories = some nestedVolume := by
  have hboot : Fat.Volume.ofBoot nestedDirectories = nestedVolume := by decide +kernel
  have hsignature : slice nestedDirectories 510 512 = [0x55, 0xAA] := by decide +kernel
  rw [Fat.volume, if_neg (by rw [length_nestedDirectories, hsignature]; decide)]
  simp only [hboot]
  rw [if_pos (by rw [length_nestedDirectories]; decide)]

lemma slice_nestedDirectories {i : ℕ} (hi : i < 1001) :
    slice nestedDirectories (2048 + i * 512) (2048 + i * 512 + 512) = nestedSector (i + 2) := by
  rw [nestedDirectories, slice_append_right (by rw [length_nestedHead]; omega), length_nestedHead,
    show 2048 + i * 512 - 2048 = i * 512 by omega,
    show 2048 + i * 512 + 512 - 2048 = i * 512 + 512 by omega]
  exact block_flatMap_range (fun j => length_nestedSector (j + 2)) hi

/-- The sector holds the one row. -/
lemma listing_nestedSector (directory : Option ℕ) (head : PyStr) (start : ℕ) :
    Fat.listing directory head (nestedSector start) = [nestedRow directory head start] := by
  have hfirst : slice (nestedSector start) (32 * 0) (32 * 0 + 32) = directoryRow start := rfl
  have hsecond : slice (nestedSector start) (32 * 1) (32 * 1 + 32) = List.replicate 32 0 := rfl
  have hrange (row : ℕ → Bytes) : ∃ rest, ((List.range 16).map row).zipIdx =
      (row 0, 0) :: (row 1, 1) :: rest := ⟨_, rfl⟩
  obtain ⟨rest, hrest⟩ := hrange fun i => slice (nestedSector start) (32 * i) (32 * i + 32)
  have hrows : Fat.rows (nestedSector start) =
      (directoryRow start, 0) :: (List.replicate 32 0, 1) :: rest := by
    rw [Fat.rows, length_nestedSector, ← hfirst, ← hsecond, ← hrest]
  have hname : Fat.shortName (directoryRow start) = PyStr.ofString "D" := by
    have hstem : slice (directoryRow start) 0 8 = 0x44 :: List.replicate 7 0x20 := rfl
    have hext : slice (directoryRow start) 8 11 = List.replicate 3 0x20 := rfl
    rw [Fat.shortName, hstem, hext]
    decide +kernel
  have hmark : u8 (directoryRow start) 0 = 0x44 := rfl
  have hattr : u8 (directoryRow start) 11 = 0x10 := rfl
  have hend : u8 (List.replicate 32 0) 0 = 0 := rfl
  rw [Fat.listing, hrows, Fat.readRows, Fat.readRows, hmark, hattr, hname, if_pos hend]
  rfl

/-- Its cluster is the whole chain. -/
lemma chain_nested {cluster : ℕ} (h : 2 ≤ cluster ∧ cluster < 1002) :
    Fat.chain nestedDirectories nestedVolume cluster none = .ok (nestedSector (cluster + 1)) := by
  have hslice := slice_nestedDirectories (show cluster - 1 < 1001 by omega)
  have hclusters : nestedVolume.clusters = 1000 := by decide
  have hvariant : nestedVolume.variant = .fat12 := by decide
  have hfat : Fat.fatBytes nestedDirectories nestedVolume = List.replicate 1536 0xFF := by
    decide +kernel
  have hstart : Fat.clusterStart nestedVolume cluster = 2048 + (cluster - 1) * 512 := by
    show (5 + (cluster - 2) * 1) * 512 = _
    omega
  have hdata : Fat.clusterData nestedDirectories nestedVolume cluster =
      .ok (nestedSector (cluster + 1)) := by
    simp only [Fat.clusterData, hstart]
    rw [show nestedVolume.clusterSize = 512 from rfl, hslice, if_neg, show cluster - 1 + 2 =
      cluster + 1 by omega]
    rw [length_nestedDirectories]
    omega
  have hnext : Fat.nextCluster nestedDirectories nestedVolume cluster = .ok none := by
    have hword : le16 (List.replicate 1536 0xFF) (cluster + cluster / 2) = 0xFFFF := by
      rw [le16, slice_replicate (by omega), Nat.add_sub_cancel_left]
      rfl
    have hentry : ∃ value, Fat.readEntry nestedDirectories nestedVolume cluster =
        .ok (value, true) := by
      simp only [Fat.readEntry, hvariant, hfat, List.length_replicate, hword]
      rw [if_neg (by omega)]
      split
      · exact ⟨_, rfl⟩
      · exact ⟨_, rfl⟩
    obtain ⟨value, hvalue⟩ := hentry
    rw [Fat.nextCluster, hvalue]
    rfl
  rw [Fat.chain, if_neg (Nat.not_lt.2 h.1), hclusters, Fat.chainFrom, if_neg List.not_mem_nil,
    hdata]
  simp only [bind, Except.bind, hnext]
  rfl

/-- A directory that is `left` steps away from the last one that still fits, and none of those after
it has been visited. -/
structure Opens (left : ℕ) (state : Fat.WalkState) (row : Fat.Row) : Prop where
  start : ∃ directory head, row = nestedRow directory head (1002 - left)
  room : left ≤ 1000
  fresh : ∀ cluster ∈ state.visitedDirs, cluster < 1002 - left

lemma opens_next {left : ℕ} {state : Fat.WalkState} {row : Fat.Row}
    (h : Opens (left + 1) state row) : ∃ state' inner,
      Fat.look nestedDirectories nestedVolume state row = .ok (.enter state' [inner]) ∧
        Opens left state' inner := by
  obtain ⟨⟨directory, head, rfl⟩, hroom, hfresh⟩ := h
  set row := nestedRow directory head (1002 - (left + 1)) with hrow
  have hstart : row.start = 1002 - (left + 1) := by
    have hlow : le16 row.raw 26 = 1002 - (left + 1) :=
      @le16_ofNat (1002 - (left + 1)) (by omega) [0, 0, 0, 0]
    have hhigh : le16 row.raw 20 = 0 := rfl
    rw [Fat.Row.start, hlow, hhigh]
    omega
  have hname : row.passedOver = false := by
    show decide (PyStr.ofString "D" ∈ PyStr.dots ∨ PyStr.ofString "D" = []) = false
    decide
  have hdirectory : row.isDirectory = true := by
    have hattr : row.attr = 0x10 := rfl
    rw [Fat.Row.isDirectory, hattr]
    decide
  have hnew : row.start ∉ state.visitedDirs := by
    rw [hstart]
    exact fun hmem => absurd (hfresh _ hmem) (Nat.lt_irrefl _)
  refine ⟨⟨state.found, row.start :: state.visitedDirs⟩,
    nestedRow (some row.start) row.logical (1002 - left), ?_, ⟨⟨_, _, rfl⟩, by omega, ?_⟩⟩
  · rw [Fat.look, hname, hdirectory, if_neg Bool.false_ne_true, if_pos rfl, if_neg hnew, hstart,
      chain_nested (by omega)]
    simp only [bind, Except.bind, listing_nestedSector]
    rw [show 1002 - (left + 1) + 1 = 1002 - left by omega]
    rfl
  · intro cluster hcluster
    rcases List.mem_cons.1 hcluster with hsame | hmem
    · rw [hsame, hstart]
      omega
    · have := hfresh _ hmem
      omega

/-- The walk through a thousand nested directories raises `RecursionError`. -/
theorem nested_directories_raise :
    ¬(EndsCleanly (fun steps => parseFat 1000 steps nestedDirectories) ∧
      EndsCleanly (fun steps => parseAdf 1000 steps nestedDirectories)) := by
  rintro ⟨hends, -⟩
  have hshallow := (raises_parseFat_iff _ _).1 ((endsCleanly_parseFat _ _).1 hends) _
    volume_nestedDirectories
  have hroot : Fat.rootContent nestedDirectories nestedVolume = .ok (nestedSector 2) := by
    have hslice := slice_nestedDirectories (show 0 < 1001 by omega)
    rw [Fat.rootContent, if_neg (by decide), ← hslice]
    rfl
  have hlook (state : Fat.WalkState) (row : Fat.Row) :
      Fat.look nestedDirectories nestedVolume state row ≠ .error Exc.tooDeep := fun h => by
    cases Fat.raises_chain _ (Fat.look_error h).2
  refine (@walk_eq_deep_iff _ _ _ Exc.tooDeep _ hlook _ _ _).1 ?_ (hshallow _ hroot)
  rw [listing_nestedSector]
  exact walk_eq_deep_of_enters _ _ opens_next ⟨⟨_, _, rfl⟩, Nat.le_refl _, by simp⟩

end Nested

end DiskReads

end AVBox
