import AVBox.Analyzers.FatImages
import AVBox.Analyzers.FatTree
import AVBox.Analyzers.StructuralAgreement

/-!
# Cross-linked clusters of a FAT volume

The validator remembers an owner for each cluster, and the owner of a row is its path.  Rows with
different paths do not share clusters in a valid volume.  Rows with the same path may, whether their
names are the same or differ in bytes that are not ASCII (`uncrossed_iff`).
-/

namespace AVBox

namespace StructuralValidator

open Binary Fallible Walk

section Owners

/-- Each row has a chain without repetitions, and neither two rows nor a row and the root directory
share a cluster. -/
structure Uncrossed (data : Bytes) (vol : Fat.Volume) : Prop where
  chains : ∀ place item, RowAt data vol Live place item →
    ∃ chain, Fat.ClusterChain data vol item.start chain ∧ chain.Nodup
  apart : ∀ place place' item item' chain chain', RowAt data vol Live place item →
    RowAt data vol Live place' item' → place ≠ place' →
    Fat.ClusterChain data vol item.start chain → Fat.ClusterChain data vol item'.start chain' →
    chain.Disjoint chain'
  root : vol.variant = .fat32 → ∃ chain, Fat.ClusterChain data vol vol.rootCluster chain ∧
    chain.Nodup ∧ ∀ place item chain', RowAt data vol Live place item →
      Fat.ClusterChain data vol item.start chain' → chain.Disjoint chain'

/-- Two rows that the validator does not tell apart: it does not examine both, or they have the same
path. -/
def Confused (maxNodes : ℕ) (data : Bytes) (vol : Fat.Volume) (place place' : List ℕ)
    (item item' : FatItem) : Prop :=
  RowAt data vol (Examines maxNodes) place item →
    RowAt data vol (Examines maxNodes) place' item' → item.owner = item'.owner

/-- What the validator does not compare is all right as well. -/
structure RestUncrossed (maxNodes : ℕ) (data : Bytes) (vol : Fat.Volume) : Prop where
  chains : ∀ place item, RowAt data vol Live place item →
    ¬RowAt data vol (Examines maxNodes) place item →
    ∃ chain, Fat.ClusterChain data vol item.start chain
  apart : ∀ place place' item item' chain chain', RowAt data vol Live place item →
    RowAt data vol Live place' item' → place ≠ place' →
    Confused maxNodes data vol place place' item item' →
    Fat.ClusterChain data vol item.start chain → Fat.ClusterChain data vol item'.start chain' →
    chain.Disjoint chain'
  root : vol.variant = .fat32 → ∀ place item chain chain', RowAt data vol Live place item →
    ¬RowAt data vol (Examines maxNodes) place item →
    Fat.ClusterChain data vol vol.rootCluster chain →
    Fat.ClusterChain data vol item.start chain' → chain.Disjoint chain'

variable {limits : StructuralLimits} {frames : ℕ} {data : Bytes} {vol : Fat.Volume}

/-- Chains that are owned by different owners have no cluster in common. -/
lemma disjoint_of_owners {final : FatState} {chain chain' : List ℕ} {owner owner' : PyStr}
    (h : ∀ cluster ∈ chain, final.used.lookup cluster = some owner)
    (h' : ∀ cluster ∈ chain', final.used.lookup cluster = some owner') (hne : owner ≠ owner') :
    chain.Disjoint chain' :=
  fun cluster hmem hmem' => hne (Option.some.inj ((h cluster hmem).symm.trans (h' cluster hmem')))

/-- A walk without findings leaves only what it does not compare. -/
lemma uncrossed_iff_of_walk {maxNodes : ℕ} {final : FatState}
    (hwalk : walkFat maxNodes data vol frames = .ok final) (hclean : final.findings = []) :
    Uncrossed data vol ↔ RestUncrossed maxNodes data vol := by
  constructor
  · intro h
    refine ⟨fun place item hrow _ => ?_,
      fun place place' item item' chain chain' hrow hrow' hne _ =>
        h.apart place place' item item' chain chain' hrow hrow' hne, fun h32 => ?_⟩
    · obtain ⟨chain, hchain, -⟩ := h.chains place item hrow
      exact ⟨chain, hchain⟩
    · obtain ⟨root, hroot, -, hapart⟩ := h.root h32
      intro place item chain chain' hrow _ hchain hchain'
      obtain rfl := hroot.unique hchain
      exact hapart place item chain' hrow hchain'
  · intro h
    have howned := fun place item =>
      @owned_of_rowAt maxNodes data vol frames final hwalk hclean place item
    refine ⟨fun place item hrow => ?_, ?_, fun h32 => ?_⟩
    · obtain ⟨chain, hchain⟩ : ∃ chain, Fat.ClusterChain data vol item.start chain := by
        by_cases hexamined : RowAt data vol (Examines maxNodes) place item
        · obtain ⟨chain, hchain, -⟩ := howned place item hexamined
          exact ⟨chain, hchain⟩
        · exact h.chains place item hrow hexamined
      exact ⟨chain, hchain, hchain.nodup⟩
    · intro place place' item item' chain chain' hrow hrow' hne hchain hchain'
      by_cases hconfused : Confused maxNodes data vol place place' item item'
      · exact h.apart place place' item item' chain chain' hrow hrow' hne hconfused hchain hchain'
      · unfold Confused at hconfused
        push Not at hconfused
        obtain ⟨hexamined, hexamined', howners⟩ := hconfused
        obtain ⟨first, hfirst, hown⟩ := howned place item hexamined
        obtain ⟨second, hsecond, hown'⟩ := howned place' item' hexamined'
        obtain rfl := hfirst.unique hchain
        obtain rfl := hsecond.unique hchain'
        exact disjoint_of_owners hown hown' howners
    · obtain ⟨root, hroot, hown⟩ := owned_of_root hwalk hclean h32
      refine ⟨root, hroot, hroot.nodup, fun place item chain' hrow hchain' => ?_⟩
      by_cases hexamined : RowAt data vol (Examines maxNodes) place item
      · obtain ⟨chain, hchain, hown'⟩ := howned place item hexamined
        obtain rfl := hchain.unique hchain'
        obtain ⟨content, -, hbelow⟩ := hexamined
        exact disjoint_of_owners hown hown' (owner_ne_root hbelow (.inl rfl)).symm
      · exact h.root h32 place item root chain' hrow hexamined hroot hchain'

/-- In a volume that is reported as valid no clusters are cross-linked exactly when none are among
the rows that the validator does not tell apart. -/
theorem uncrossed_iff {v : StructuralValidation}
    (h : validate limits frames data = .ok (some v)) (hformat : v.format = .fat)
    (hstate : v.state = .valid) :
    Uncrossed data (Fat.Volume.ofBoot data) ↔
      RestUncrossed limits.maxNodes data (Fat.Volume.ofBoot data) := by
  obtain ⟨-, hv⟩ := validated_as h hstate
  rw [hformat] at hv
  obtain ⟨final, hvalid⟩ := fat_valid_iff.1 ⟨v, hv, hstate⟩
  exact uncrossed_iff_of_walk hvalid.walk hvalid.clean

end Owners

/-! ### Two rows of one name -/

section Samples

/-- A volume whose root directory has the row of the file `A` twice, with the same cluster. -/
def sameRows : Bytes :=
  Fat.oneCluster ++ Fat.oneByteRow 2 ++ Fat.oneByteRow 2 ++ List.replicate 448 0 ++
    List.replicate 512 0x58

lemma exists_valid {data : Bytes} (h : (validate .default 1000 data).toOption.join.any (fun v =>
    decide (v.format = .fat ∧ v.state = .valid)) = true) :
    ∃ v, validate .default 1000 data = .ok (some v) ∧ v.format = .fat ∧ v.state = .valid := by
  cases hv : validate .default 1000 data with
  | error e =>
      rw [hv] at h
      cases h
  | ok report =>
      rw [hv] at h
      cases report with
      | none => cases h
      | some v => exact ⟨v, rfl, of_decide_eq_true h⟩

/-- The two rows share their cluster, and the volume is valid. -/
theorem same_rows_share : (∃ v, validate .default 1000 sameRows = .ok (some v) ∧
      v.format = .fat ∧ v.state = .valid) ∧
    ¬Uncrossed sameRows (Fat.Volume.ofBoot sameRows) := by
  refine ⟨exists_valid (by decide +kernel), fun h => ?_⟩
  have hvol : Fat.Volume.ofBoot sameRows = Fat.oneClusterVolume := by decide +kernel
  rw [hvol] at h
  have hroot : RootContent sameRows Fat.oneClusterVolume (slice sameRows 1024 1536) := by
    rw [RootContent, if_neg (by decide)]
    rfl
  have hrow : ∀ i < 2, RowAt sameRows Fat.oneClusterVolume Live [i] ⟨Fat.oneByteRow 2, []⟩ := by
    intro i hi
    have hmarked : ∀ i < 2, (marked (slice sameRows 1024 1536))[i]? = some (Fat.oneByteRow 2) := by
      decide +kernel
    exact ⟨_, hroot, .here (hmarked i hi) (by unfold Live; decide +kernel)⟩
  have hchain : Fat.ClusterChain sameRows Fat.oneClusterVolume
      (FatItem.mk (Fat.oneByteRow 2) []).start [2] := by
    have hstart : (FatItem.mk (Fat.oneByteRow 2) []).start = 2 := by decide +kernel
    rw [hstart]
    refine .last ⟨by decide, by decide⟩ ?_ (by decide +kernel)
    unfold Fat.InTable
    decide +kernel
  exact h.apart [0] [1] _ _ [2] [2] (hrow 0 (by decide)) (hrow 1 (by decide)) (by decide) hchain
    hchain List.mem_cons_self List.mem_cons_self

/-- The rows of the two files. -/
def fileRows : List Bytes := [Fat.oneByteRow 2, 0x42 :: (Fat.oneByteRow 3).drop 1]

lemma twoFiles_volume : Fat.Volume.ofBoot Fat.twoFiles = Fat.twoClusterVolume := by decide +kernel

lemma twoFiles_root :
    RootContent Fat.twoFiles Fat.twoClusterVolume (slice Fat.twoFiles 1024 1536) := by
  rw [RootContent, if_neg (by decide)]
  rfl

/-- There are no other rows. -/
lemma twoFiles_rows {live : ℕ → Bytes → Prop} {place : List ℕ} {item : FatItem} :
    RowAt Fat.twoFiles Fat.twoClusterVolume live place item ↔
      ∃ i raw, fileRows[i]? = some raw ∧ live i raw ∧ place = [i] ∧ item = ⟨raw, []⟩ := by
  have hmarked : marked (slice Fat.twoFiles 1024 1536) = fileRows := by decide +kernel
  have hfiles : ∀ raw ∈ fileRows, (FatItem.mk raw []).isDirectory = false := by decide +kernel
  constructor
  · rintro ⟨content, hroot, hbelow⟩
    rw [← hroot.unique twoFiles_root] at hmarked
    cases hbelow with
    | here hraw hlive => exact ⟨_, _, hmarked ▸ hraw, hlive, rfl, rfl⟩
    | there hraw _ hdir _ _ =>
        rw [hmarked] at hraw
        rw [hfiles _ (List.mem_of_getElem? hraw)] at hdir
        cases hdir
  · rintro ⟨i, raw, hraw, hlive, rfl, rfl⟩
    exact ⟨_, twoFiles_root, .here (hmarked.symm ▸ hraw) hlive⟩

/-- The validator tells the two files apart, so they have no cluster in common. -/
theorem twoFiles_uncrossed : Uncrossed Fat.twoFiles (Fat.Volume.ofBoot Fat.twoFiles) := by
  obtain ⟨v, hv, hformat, hstate⟩ := @exists_valid Fat.twoFiles (by decide +kernel)
  refine (uncrossed_iff hv hformat hstate).2 ?_
  rw [twoFiles_volume]
  have hlength : ∀ {i raw}, fileRows[i]? = some raw → i < 2 := fun h =>
    (List.getElem?_eq_some_iff.1 h).1
  have hnamed : ∀ raw ∈ fileRows, fatSkipped raw = false ∧
      (FatItem.mk raw []).name ∉ PyStr.dots := by decide +kernel
  have hexamined : ∀ place item, RowAt Fat.twoFiles Fat.twoClusterVolume Live place item →
      RowAt Fat.twoFiles Fat.twoClusterVolume (Examines StructuralLimits.default.maxNodes) place
        item := by
    intro place item h
    obtain ⟨i, raw, hraw, -, rfl, rfl⟩ := twoFiles_rows.1 h
    have hlimit : i < StructuralLimits.default.maxNodes := (hlength hraw).trans (by decide)
    exact twoFiles_rows.2
      ⟨i, raw, hraw, ⟨hlimit, hnamed raw (List.mem_of_getElem? hraw)⟩, rfl, rfl⟩
  refine ⟨fun place item hrow hnot => absurd (hexamined _ _ hrow) hnot, ?_,
    fun h32 => absurd h32 (by decide)⟩
  intro place place' item item' chain chain' hrow hrow' hplace hconfused _ _
  have howner := hconfused (hexamined _ _ hrow) (hexamined _ _ hrow')
  obtain ⟨i, raw, hraw, -, rfl, rfl⟩ := twoFiles_rows.1 hrow
  obtain ⟨j, raw', hraw', -, rfl, rfl⟩ := twoFiles_rows.1 hrow'
  have hdistinct : ∀ i < 2, ∀ j < 2, fileRows[i]?.map (fun raw => (FatItem.mk raw []).owner) =
      fileRows[j]?.map (fun raw => (FatItem.mk raw []).owner) → i = j := by decide +kernel
  have hsame := hdistinct i (hlength hraw) j (hlength hraw')
    (by rw [hraw, hraw', Option.map_some, Option.map_some, howner])
  exact absurd (congrArg (fun i => [i]) hsame) hplace

end Samples

end StructuralValidator

end AVBox
