import AVBox.Analyzers.FatImages
import AVBox.Analyzers.FatTree
import Mathlib.Data.Finset.Card
import Mathlib.Order.Interval.Finset.Nat

/-!
# Lost clusters of a FAT volume

A cluster is lost when the table has an entry for it that is neither free nor bad, and no chain of
the root directory or of a row leads to it.  The validator counts clusters by what it has walked
through.  It takes every entry other than 0 for one in use, those behind the end of the table
included, and leaves out cluster 2 of each FAT32 volume.  So its number is the number of lost
clusters exactly when what it adds makes up for what it leaves out (`orphans_exact_iff`).
-/

namespace AVBox

namespace StructuralValidator

open Binary Fallible Walk

/-- The mark of a bad cluster. -/
def badMark : FatVariant → ℕ
  | .fat12 => 0xFF7
  | .fat16 => 0xFFF7
  | .fat32 => 0x0FFFFFF7

section Lost

variable (data : Bytes) (vol : Fat.Volume)

/-- The cluster is in use according to the table, and no chain leads to it. -/
structure Lost (cluster : ℕ) : Prop where
  table : Fat.InTable data vol cluster
  used : Fat.tableEntry data vol cluster ≠ 0 ∧ Fat.tableEntry data vol cluster ≠ badMark vol.variant
  unreached : ¬Reached data vol Live cluster

/-- The validator counts the cluster, although it is not lost. -/
structure Overcounted (maxNodes cluster : ℕ) : Prop where
  unexamined : ¬Reached data vol (Examines maxNodes) cluster
  notExempt : ¬(vol.variant = .fat32 ∧ cluster = 2)
  notLost : ¬Fat.InTable data vol cluster ∨ Fat.tableEntry data vol cluster = badMark vol.variant ∨
    Fat.tableEntry data vol cluster ≠ 0 ∧ Reached data vol Live cluster

open Classical in
/-- The clusters of the volume that are lost. -/
noncomputable def lostClusters : Finset ℕ :=
  (Finset.Ico 2 (vol.clusters + 2)).filter (Lost data vol)

open Classical in
/-- The clusters of the volume that are counted wrongly. -/
noncomputable def overcountedClusters (maxNodes : ℕ) : Finset ℕ :=
  (Finset.Ico 2 (vol.clusters + 2)).filter (Overcounted data vol maxNodes)

variable {data vol} in
lemma mem_lostClusters {cluster : ℕ} :
    cluster ∈ lostClusters data vol ↔ Fat.Inside vol cluster ∧ Lost data vol cluster := by
  simp only [lostClusters, Finset.mem_filter, Finset.mem_Ico, Fat.Inside]

variable {data vol} in
lemma mem_overcountedClusters {maxNodes cluster : ℕ} :
    cluster ∈ overcountedClusters data vol maxNodes ↔
      Fat.Inside vol cluster ∧ Overcounted data vol maxNodes cluster := by
  simp only [overcountedClusters, Finset.mem_filter, Finset.mem_Ico, Fat.Inside]

/-- What is reported about lost clusters is right. -/
structure OrphansExact (v : StructuralValidation) : Prop where
  count : v.observations.lookup "FAT_ORPHAN_CLUSTERS" =
    some (.int (lostClusters data vol).card)
  present : "FAT_ORPHAN_CLUSTERS_PRESENT" ∈ v.findings.map StructuralFinding.findingType ↔
    (lostClusters data vol).card ≠ 0

end Lost

section Report

variable {limits : StructuralLimits} {frames : ℕ} {data : Bytes} {vol : Fat.Volume}

/-- No finding gets lost when they are made unique. -/
lemma mem_result_findings {format : MediaFormat} {variant : Option String}
    {state : StructuralState} {observations : List (String × Observed)} {findings : List String}
    {completeness finding : String} :
    finding ∈ (result format variant state observations findings completeness).findings.map
        StructuralFinding.findingType ↔ finding ∈ findings := by
  have hunique : ∀ kept : List String, finding ∈ findings.foldl
      (fun kept f => if f ∈ kept then kept else kept ++ [f]) kept ↔
        finding ∈ kept ∨ finding ∈ findings := by
    intro kept
    induction findings generalizing kept with
    | nil => simp
    | cons first rest ih =>
        rw [List.foldl_cons, ih, List.mem_cons]
        split
        · next hmem =>
            constructor
            · tauto
            · rintro (hkept | rfl | hrest)
              · exact .inl hkept
              · exact .inl hmem
              · exact .inr hrest
        · rw [List.mem_append, List.mem_singleton, or_assoc]
  simp only [result, List.map_map]
  rw [show StructuralFinding.findingType ∘ (fun f => (⟨f, observations.map Prod.fst⟩ :
    StructuralFinding)) = id from rfl, List.map_id, hunique]
  simp

/-- What is reported about orphans in a volume without other findings. -/
lemma fat_report (hbpb : BpbValid (Fat.Volume.ofBoot data) data.length) {final : FatState}
    (hwalk : walkFat limits.maxNodes data (Fat.Volume.ofBoot data) frames = .ok final)
    (hclean : final.findings = []) {v : StructuralValidation}
    (hv : fat limits frames data = .ok v) :
    v.observations.lookup "FAT_ORPHAN_CLUSTERS" =
        some (.int (orphans data (Fat.Volume.ofBoot data) final.reachable).length) ∧
      ("FAT_ORPHAN_CLUSTERS_PRESENT" ∈ v.findings.map StructuralFinding.findingType ↔
        (orphans data (Fat.Volume.ofBoot data) final.reachable).length ≠ 0) := by
  unfold fat at hv
  simp only [] at hv
  rw [if_neg (not_not.2 hbpb)] at hv
  obtain ⟨final', hwalk', hv⟩ := bind_eq_ok.1 hv
  obtain rfl := Except.ok.inj (hwalk.symm.trans hwalk')
  obtain rfl := Except.ok.inj hv
  refine ⟨rfl, ?_⟩
  have hcopies : ∀ copiesValid : Bool, "FAT_ORPHAN_CLUSTERS_PRESENT" ∉
      (if copiesValid then [] else ["FAT_COPIES_MISMATCH"] : List String) := by decide
  rw [mem_result_findings, hclean, List.append_nil, List.mem_append, or_iff_right (hcopies _)]
  generalize orphans data (Fat.Volume.ofBoot data) final.reachable = found
  cases found with
  | nil => simp
  | cons first rest => simp

/-- A cluster that is counted. -/
def Counted (data : Bytes) (vol : Fat.Volume) (reachable : List ℕ) (cluster : ℕ) : Prop :=
  fatValue data vol cluster ≠ 0 ∧ cluster ∉ reachable ∧ ¬(vol.variant = .fat32 ∧ cluster = 2)

instance (reachable : List ℕ) : DecidablePred (Counted data vol reachable) := fun _ => by
  unfold Counted
  infer_instance

lemma length_orphans (reachable : List ℕ) : (orphans data vol reachable).length =
    ((Finset.Ico 2 (vol.clusters + 2)).filter (Counted data vol reachable)).card := by
  have hnodup : (orphans data vol reachable).Nodup := by
    refine List.Nodup.filter _ (List.Nodup.map ?_ List.nodup_range)
    exact fun a b h => Nat.add_right_cancel h
  rw [← List.toFinset_card_of_nodup hnodup]
  congr 1
  ext cluster
  rw [List.mem_toFinset, orphans, List.mem_filter, decide_eq_true_eq, Finset.mem_filter,
    Finset.mem_Ico, List.mem_map]
  refine and_congr_left fun _ => ?_
  constructor
  · rintro ⟨i, hi, rfl⟩
    rw [List.mem_range] at hi
    omega
  · rintro ⟨hlow, hhigh⟩
    exact ⟨cluster - 2, List.mem_range.2 (by omega), by omega⟩

/-- A cluster is counted if it is lost and not left out, or if it is overcounted. -/
lemma counted_iff {final : FatState}
    (hwalk : walkFat limits.maxNodes data vol frames = .ok final) (hclean : final.findings = [])
    (cluster : ℕ) : Counted data vol final.reachable cluster ↔
      Lost data vol cluster ∧ ¬(vol.variant = .fat32 ∧ cluster = 2) ∨
        Overcounted data vol limits.maxNodes cluster := by
  have hreachable := reachable_iff hwalk hclean cluster
  have hmore : Reached data vol (Examines limits.maxNodes) cluster →
      Reached data vol Live cluster :=
    Reached.mono fun _ _ => live_of_examines
  unfold Counted
  rw [hreachable]
  constructor
  · rintro ⟨hentry, hunexamined, hkept⟩
    by_cases htable : Fat.InTable data vol cluster
    · rw [fatValue_inside htable] at hentry
      by_cases hbad : Fat.tableEntry data vol cluster = badMark vol.variant
      · exact .inr ⟨hunexamined, hkept, .inr (.inl hbad)⟩
      by_cases hreached : Reached data vol Live cluster
      · exact .inr ⟨hunexamined, hkept, .inr (.inr ⟨hentry, hreached⟩)⟩
      · exact .inl ⟨⟨htable, ⟨hentry, hbad⟩, hreached⟩, hkept⟩
    · exact .inr ⟨hunexamined, hkept, .inl htable⟩
  · rintro (⟨⟨htable, ⟨hentry, -⟩, hunreached⟩, hkept⟩ | ⟨hunexamined, hkept, hwrong⟩)
    · rw [fatValue_inside htable]
      exact ⟨hentry, fun h => hunreached (hmore h), hkept⟩
    · refine ⟨?_, hunexamined, hkept⟩
      by_cases htable : Fat.InTable data vol cluster
      · rw [fatValue_inside htable]
        rcases hwrong with hout | hbad | ⟨hentry, -⟩
        · exact absurd htable hout
        · rw [hbad]
          cases vol.variant <;> decide
        · exact hentry
      · rw [fatValue_outside htable]
        decide

lemma not_lost_of_overcounted {maxNodes cluster : ℕ} (h : Overcounted data vol maxNodes cluster) :
    ¬Lost data vol cluster := by
  rintro ⟨htable, ⟨-, hbad⟩, hunreached⟩
  rcases h.notLost with hout | hmark | ⟨-, hreached⟩
  · exact hout htable
  · exact hbad hmark
  · exact hunreached hreached

lemma clusters_of_fat32 (h : vol.variant = .fat32) : 65525 ≤ vol.clusters := by
  unfold Fat.Volume.variant at h
  split_ifs at h
  omega

open Classical in
/-- How many clusters are counted. -/
lemma card_counted {final : FatState} (hwalk : walkFat limits.maxNodes data vol frames = .ok final)
    (hclean : final.findings = []) :
    (orphans data vol final.reachable).length +
        (if vol.variant = .fat32 ∧ Lost data vol 2 then 1 else 0) =
      (lostClusters data vol).card + (overcountedClusters data vol limits.maxNodes).card := by
  have hcounted := counted_iff hwalk hclean
  have hlost : (((Finset.Ico 2 (vol.clusters + 2)).filter (Counted data vol final.reachable)).filter
      (Lost data vol)) = (lostClusters data vol).filter
        (fun cluster => ¬(vol.variant = .fat32 ∧ cluster = 2)) := by
    ext cluster
    simp only [Finset.mem_filter, mem_lostClusters, Finset.mem_Ico, hcounted, Fat.Inside]
    have hapart := @not_lost_of_overcounted data vol limits.maxNodes cluster
    tauto
  have hover : (((Finset.Ico 2 (vol.clusters + 2)).filter (Counted data vol final.reachable)).filter
      (fun cluster => ¬Lost data vol cluster)) = overcountedClusters data vol limits.maxNodes := by
    ext cluster
    simp only [Finset.mem_filter, mem_overcountedClusters, Finset.mem_Ico, hcounted, Fat.Inside]
    have hapart := @not_lost_of_overcounted data vol limits.maxNodes cluster
    tauto
  have hexempt : ((lostClusters data vol).filter
      (fun cluster => vol.variant = .fat32 ∧ cluster = 2)).card =
        if vol.variant = .fat32 ∧ Lost data vol 2 then 1 else 0 := by
    split
    · next h =>
        rw [Finset.card_eq_one]
        refine ⟨2, ?_⟩
        ext cluster
        simp only [Finset.mem_filter, mem_lostClusters, Finset.mem_singleton, Fat.Inside]
        constructor
        · exact fun hmem => hmem.2.2
        · rintro rfl
          have hclusters := clusters_of_fat32 h.1
          exact ⟨⟨⟨by omega, by omega⟩, h.2⟩, h.1, rfl⟩
    · next h =>
        rw [Finset.card_eq_zero, Finset.filter_eq_empty_iff]
        rintro cluster hmem ⟨h32, rfl⟩
        exact h ⟨h32, (mem_lostClusters.1 hmem).2⟩
  rw [length_orphans, ← Finset.card_filter_add_card_filter_not (Lost data vol), hlost, hover,
    ← Finset.card_filter_add_card_filter_not (s := lostClusters data vol)
      (fun cluster => vol.variant = .fat32 ∧ cluster = 2), hexempt]
  omega

open Classical in
/-- In a volume in which the traversal finds nothing, what is reported about lost clusters is right
exactly when as many clusters are overcounted as are left out. -/
theorem orphans_exact_iff (hbpb : BpbValid (Fat.Volume.ofBoot data) data.length) {final : FatState}
    (hwalk : walkFat limits.maxNodes data (Fat.Volume.ofBoot data) frames = .ok final)
    (hclean : final.findings = []) {v : StructuralValidation}
    (hv : fat limits frames data = .ok v) :
    OrphansExact data (Fat.Volume.ofBoot data) v ↔
      (overcountedClusters data (Fat.Volume.ofBoot data) limits.maxNodes).card =
        if (Fat.Volume.ofBoot data).variant = .fat32 ∧ Lost data (Fat.Volume.ofBoot data) 2 then 1
        else 0 := by
  obtain ⟨hcount, hpresent⟩ := fat_report hbpb hwalk hclean hv
  have hcard := card_counted hwalk hclean
  constructor
  · rintro ⟨hexact, -⟩
    have hlength := Observed.int.inj (Option.some.inj (hcount.symm.trans hexact))
    omega
  · intro hsame
    have hlength : (orphans data (Fat.Volume.ofBoot data) final.reachable).length =
        (lostClusters data (Fat.Volume.ofBoot data)).card := by omega
    rw [hlength] at hcount hpresent
    exact ⟨hcount, hpresent⟩

end Report

/-! ### A bad cluster, and a lost one -/

section Samples

/-- An empty volume with one cluster, whose entry consists of these two bytes. -/
def oneEntryVolume (low high : UInt8) : Bytes :=
  Fat.oneCluster.take 512 ++ [0xF8, 0xFF, 0xFF, low, high] ++ List.replicate 507 0 ++
    List.replicate 512 0 ++ List.replicate 512 0x58

lemma oneClusterVolume_inside {cluster : ℕ} (h : Fat.Inside Fat.oneClusterVolume cluster) :
    cluster = 2 := by
  have hclusters : Fat.oneClusterVolume.clusters = 1 := by decide
  obtain ⟨hlow, hhigh⟩ := h
  omega

/-- The bad cluster is not lost, but it is counted. -/
theorem bad_cluster_counted : ∃ v final, BpbValid (Fat.Volume.ofBoot (oneEntryVolume 0xF7 0x0F))
      (oneEntryVolume 0xF7 0x0F).length ∧
    walkFat StructuralLimits.default.maxNodes (oneEntryVolume 0xF7 0x0F)
      (Fat.Volume.ofBoot (oneEntryVolume 0xF7 0x0F)) 1000 = .ok final ∧ final.findings = [] ∧
    fat .default 1000 (oneEntryVolume 0xF7 0x0F) = .ok v ∧
    ¬OrphansExact (oneEntryVolume 0xF7 0x0F) (Fat.Volume.ofBoot (oneEntryVolume 0xF7 0x0F)) v := by
  have hvol : Fat.Volume.ofBoot (oneEntryVolume 0xF7 0x0F) = Fat.oneClusterVolume := by
    decide +kernel
  have hbpb : BpbValid Fat.oneClusterVolume (oneEntryVolume 0xF7 0x0F).length := by decide +kernel
  have hwalk : walkFat StructuralLimits.default.maxNodes (oneEntryVolume 0xF7 0x0F)
      Fat.oneClusterVolume 1000 = .ok ⟨[], [], [], []⟩ := by decide +kernel
  obtain ⟨v, hv, hcount⟩ : ∃ v, fat .default 1000 (oneEntryVolume 0xF7 0x0F) = .ok v ∧
      v.observations.lookup "FAT_ORPHAN_CLUSTERS" = some (.int 1) := by
    have hreport : (fat .default 1000 (oneEntryVolume 0xF7 0x0F)).toOption.any (fun v =>
        decide (v.observations.lookup "FAT_ORPHAN_CLUSTERS" = some (.int 1))) = true := by
      decide +kernel
    cases hv : fat .default 1000 (oneEntryVolume 0xF7 0x0F) with
    | error e =>
        rw [hv] at hreport
        cases hreport
    | ok v =>
        rw [hv] at hreport
        exact ⟨v, rfl, of_decide_eq_true hreport⟩
  rw [hvol]
  refine ⟨v, _, hbpb, hwalk, rfl, hv, fun hexact => ?_⟩
  have hnone : lostClusters (oneEntryVolume 0xF7 0x0F) Fat.oneClusterVolume = ∅ := by
    refine Finset.eq_empty_of_forall_notMem fun cluster hmem => ?_
    obtain ⟨hinside, -, ⟨-, hbad⟩, -⟩ := mem_lostClusters.1 hmem
    obtain rfl := oneClusterVolume_inside hinside
    exact hbad (by decide +kernel)
  have hwrong := hcount.symm.trans hexact.count
  rw [hnone] at hwrong
  exact absurd hwrong (by decide)

/-- A cluster that only the table knows of is reported. -/
theorem lost_cluster_reported : ∃ v, fat .default 1000 (oneEntryVolume 0xFF 0x0F) = .ok v ∧
    OrphansExact (oneEntryVolume 0xFF 0x0F) (Fat.Volume.ofBoot (oneEntryVolume 0xFF 0x0F)) v := by
  have hvol : Fat.Volume.ofBoot (oneEntryVolume 0xFF 0x0F) = Fat.oneClusterVolume := by
    decide +kernel
  have hbpb : BpbValid Fat.oneClusterVolume (oneEntryVolume 0xFF 0x0F).length := by decide +kernel
  have hwalk : walkFat StructuralLimits.default.maxNodes (oneEntryVolume 0xFF 0x0F)
      Fat.oneClusterVolume 1000 = .ok ⟨[], [], [], []⟩ := by decide +kernel
  have h12 : Fat.oneClusterVolume.variant ≠ .fat32 := by decide
  obtain ⟨v, hv⟩ : ∃ v, fat .default 1000 (oneEntryVolume 0xFF 0x0F) = .ok v := by
    unfold fat
    simp only []
    rw [hvol, if_neg (not_not.2 hbpb), hwalk]
    exact ⟨_, rfl⟩
  have hempty : marked (slice (oneEntryVolume 0xFF 0x0F) 1024 1536) = [] := by decide +kernel
  have hunreached : ∀ cluster,
      ¬Reached (oneEntryVolume 0xFF 0x0F) Fat.oneClusterVolume Live cluster := by
    rintro cluster (⟨h32, -⟩ | ⟨place, item, ⟨content, hroot, hbelow⟩, -⟩)
    · exact h12 h32
    · rw [RootContent, if_neg h12] at hroot
      have hmarked : marked content = [] := by rw [hroot]; exact hempty
      cases hbelow with
      | here hraw _ =>
          rw [hmarked] at hraw
          cases hraw
      | there hraw _ _ _ _ =>
          rw [hmarked] at hraw
          cases hraw
  have hnone : overcountedClusters (oneEntryVolume 0xFF 0x0F) Fat.oneClusterVolume
      StructuralLimits.default.maxNodes = ∅ := by
    refine Finset.eq_empty_of_forall_notMem fun cluster hmem => ?_
    obtain ⟨hinside, -, -, hwrong⟩ := mem_overcountedClusters.1 hmem
    obtain rfl := oneClusterVolume_inside hinside
    rcases hwrong with hout | hbad | ⟨-, hreached⟩
    · exact hout (by unfold Fat.InTable; decide +kernel)
    · exact absurd hbad (by decide +kernel)
    · exact hunreached _ hreached
  refine ⟨v, hv, (orphans_exact_iff (hvol ▸ hbpb) (hvol ▸ hwalk) rfl hv).2 ?_⟩
  rw [hvol, hnone, if_neg fun h => h12 h.1]
  rfl

end Samples

end StructuralValidator

end AVBox
