import AVBox.Analyzers.DiskImages
import AVBox.Lib.Fallible
import Mathlib.Data.List.Perm.Subperm

/-!
# Cluster chains of a FAT volume

What the allocation table says about a cluster (`tableEntry`), independently of how `_parse_fat`
unpacks its entries, and the clusters a file of a given size occupies (`Chain`, `Content`).  `chain`
returns that content, except that it does not compare the first cluster with the data area
(`chain_eq_ok_iff`).
-/

namespace AVBox

namespace Fat

open Binary Fallible

/-! ## The allocation table -/

/-- The width of an entry. -/
def entryBits : FatVariant → ℕ
  | .fat12 => 12
  | .fat16 => 16
  | .fat32 => 32

/-- The entries from here on end a chain. -/
def endMark : FatVariant → ℕ
  | .fat12 => 0xFF8
  | .fat16 => 0xFFF8
  | .fat32 => 0x0FFFFFF8

section Reference

variable (data : Bytes) (vol : Volume)

/-- The entry of a cluster: a digit of the table, read as one little-endian number.  The upper four
bits of a 32-bit entry are reserved. -/
def tableEntry (cluster : ℕ) : ℕ :=
  leNat (fatBytes data vol) / 2 ^ (entryBits vol.variant * cluster) %
    2 ^ min (entryBits vol.variant) 28

/-- The table is long enough to have an entry for the cluster. -/
def InTable (cluster : ℕ) : Prop :=
  entryBits vol.variant * (cluster + 1) ≤ 8 * (fatBytes data vol).length

/-- The table leads from one cluster to another. -/
def Leads (cluster next : ℕ) : Prop :=
  InTable data vol cluster ∧ tableEntry data vol cluster = next ∧ next < endMark vol.variant

/-- The cluster belongs to the data area. -/
def Inside (cluster : ℕ) : Prop := 2 ≤ cluster ∧ cluster < vol.clusters + 2

/-- The cluster lies within the file. -/
def InFile (cluster : ℕ) : Prop :=
  2 ≤ cluster ∧ clusterStart vol cluster + vol.clusterSize ≤ data.length

def clusterBytes (cluster : ℕ) : Bytes :=
  slice data (clusterStart vol cluster) (clusterStart vol cluster + vol.clusterSize)

/-- A chain of clusters of the data area. -/
structure Chain (start : ℕ) (clusters : List ℕ) : Prop where
  head : clusters.head? = some start
  linked : clusters.IsChain (Leads data vol)
  inside : ∀ cluster ∈ clusters, Inside vol cluster
  distinct : clusters.Nodup

/-- The content of a file with this start cluster and size. -/
def Content (start size : ℕ) (content : Bytes) : Prop :=
  if size = 0 then content = []
  else ∃ clusters, Chain data vol start clusters ∧
    clusters.length = (size + vol.clusterSize - 1) / vol.clusterSize ∧
    content = (clusters.flatMap (clusterBytes data vol)).take size

end Reference

section Table

variable {data : Bytes} {vol : Volume}

lemma digit12_even (value k : ℕ) :
    value / 256 ^ (3 * k) % 256 ^ 2 % 0x1000 = value / 2 ^ (12 * (2 * k)) % 2 ^ 12 := by
  have hpow : 256 ^ (3 * k) = 2 ^ (12 * (2 * k)) := by
    rw [show 256 = 2 ^ 8 from rfl, ← Nat.pow_mul]
    congr 1
    omega
  rw [hpow]
  omega

lemma digit12_odd (value k : ℕ) :
    value / 256 ^ (3 * k + 1) % 256 ^ 2 / 16 = value / 2 ^ (12 * (2 * k + 1)) % 2 ^ 12 := by
  have hpow : 2 ^ (12 * (2 * k + 1)) = 256 ^ (3 * k + 1) * 16 := by
    rw [show 256 = 2 ^ 8 from rfl, show 16 = 2 ^ 4 from rfl, ← Nat.pow_mul, ← Nat.pow_add]
    congr 1
    omega
  rw [hpow, ← Nat.div_div_eq_div_mul]
  omega

lemma guarded_eq_ok {short : Prop} [Decidable short] {exc : Exc} {entry mark value : ℕ}
    {eof : Bool} :
    (if short then .error exc else .ok (entry, decide (entry ≥ mark)) : Except Exc (ℕ × Bool)) =
        .ok (value, eof) ↔ ¬short ∧ value = entry ∧ eof = decide (mark ≤ entry) := by
  split
  · next hshort =>
      constructor
      · intro h
        cases h
      · exact fun h => absurd hshort h.1
  · next hlong =>
      constructor
      · intro h
        cases h
        exact ⟨hlong, rfl, rfl⟩
      · rintro ⟨-, rfl, rfl⟩
        rfl

/-- The three ways `next_cluster` unpacks an entry read the same table. -/
lemma readEntry_eq_ok {cluster value : ℕ} {eof : Bool} :
    readEntry data vol cluster = .ok (value, eof) ↔
      InTable data vol cluster ∧ value = tableEntry data vol cluster ∧
        eof = decide (endMark vol.variant ≤ tableEntry data vol cluster) := by
  unfold readEntry InTable tableEntry
  cases vol.variant with
  | fat12 =>
      refine guarded_eq_ok.trans ?_
      have hword : (if cluster % 2 = 1 then le16 (fatBytes data vol) (cluster + cluster / 2) / 16
            else le16 (fatBytes data vol) (cluster + cluster / 2) % 0x1000) =
          leNat (fatBytes data vol) / 2 ^ (12 * cluster) % 2 ^ 12 := by
        rw [le16, leNat_slice]
        obtain ⟨k, rfl | rfl⟩ := Nat.even_or_odd' cluster
        · rw [show 2 * k + 2 * k / 2 = 3 * k by omega, if_neg (by omega), digit12_even]
        · rw [show 2 * k + 1 + (2 * k + 1) / 2 = 3 * k + 1 by omega, if_pos (by omega), digit12_odd]
      simp only [hword]
      refine and_congr_left fun _ => ?_
      simp only [entryBits]
      omega
  | fat16 =>
      refine guarded_eq_ok.trans ?_
      have hword : le16 (fatBytes data vol) (cluster * 2) =
          leNat (fatBytes data vol) / 2 ^ (16 * cluster) % 2 ^ 16 := by
        rw [le16, leNat_slice, show 256 = 2 ^ 8 from rfl, ← Nat.pow_mul, ← Nat.pow_mul]
        congr 3
        omega
      simp only [hword]
      refine and_congr_left fun _ => ?_
      simp only [entryBits]
      omega
  | fat32 =>
      refine guarded_eq_ok.trans ?_
      have hword : le32 (fatBytes data vol) (cluster * 4) % 0x10000000 =
          leNat (fatBytes data vol) / 2 ^ (32 * cluster) % 2 ^ 28 := by
        rw [le32, leNat_slice, show 256 = 2 ^ 8 from rfl, ← Nat.pow_mul, ← Nat.pow_mul,
          show 8 * (cluster * 4) = 32 * cluster by omega]
        omega
      simp only [hword]
      refine and_congr_left fun _ => ?_
      simp only [entryBits]
      omega

lemma nextCluster_eq_some {cluster next : ℕ} :
    nextCluster data vol cluster = .ok (some next) ↔
      Leads data vol cluster next ∧ Inside vol next := by
  unfold nextCluster
  rw [bind_eq_ok]
  constructor
  · rintro ⟨⟨value, eof⟩, hread, hnext⟩
    obtain ⟨hin, rfl, rfl⟩ := readEntry_eq_ok.1 hread
    simp only [decide_eq_true_eq] at hnext
    split at hnext
    · cases hnext
    · next hmark =>
        split at hnext
        · cases hnext
        · next hrange =>
            cases hnext
            exact ⟨⟨hin, rfl, by omega⟩, by omega, by omega⟩
  · rintro ⟨⟨hin, rfl, hmark⟩, hlow, hhigh⟩
    refine ⟨_, readEntry_eq_ok.2 ⟨hin, rfl, rfl⟩, ?_⟩
    simp only [decide_eq_true_eq]
    rw [if_neg (by omega), if_neg (by omega)]
    rfl

lemma clusterData_eq_ok {cluster : ℕ} {content : Bytes} :
    clusterData data vol cluster = .ok content ↔
      InFile data vol cluster ∧ content = clusterBytes data vol cluster := by
  unfold clusterData
  simp only []
  split
  · next hout =>
      constructor
      · intro h
        cases h
      · rintro ⟨⟨hlow, hhigh⟩, -⟩
        omega
  · next hin =>
      constructor
      · intro h
        cases h
        exact ⟨⟨by omega, by omega⟩, rfl⟩
      · rintro ⟨-, rfl⟩
        rfl

end Table

/-! ## The layout -/

section Layout

variable {data : Bytes} {vol : Volume}

lemma coherent_of_volume (h : volume data = some vol) : vol.Coherent data.length := by
  unfold volume at h
  split at h
  · cases h
  · simp only [] at h
    split at h
    · next hcoherent =>
        cases h
        exact hcoherent
    · cases h

lemma Volume.Coherent.clusterSize_pos {size : ℕ} (h : vol.Coherent size) : 0 < vol.clusterSize := by
  obtain ⟨hbps, hspc, -⟩ := h
  refine Nat.mul_pos (Nat.pos_of_ne_zero hspc) ?_
  simp only [List.mem_cons, List.not_mem_nil, or_false] at hbps
  omega

/-- The data area of a volume that fits into the file lies within the file. -/
lemma inFile_of_fits (hsize : vol.total * vol.bps ≤ data.length) (hdata : vol.firstData < vol.total)
    {cluster : ℕ} (h : Inside vol cluster) : InFile data vol cluster := by
  have hspc : vol.clusters * vol.spc ≤ vol.total - vol.firstData := Nat.div_mul_le_self _ _
  have hlast : (cluster - 2 + 1) * vol.spc ≤ vol.clusters * vol.spc :=
    Nat.mul_le_mul_right _ (by have := h.1; have := h.2; omega)
  refine ⟨h.1, ?_⟩
  calc clusterStart vol cluster + vol.clusterSize
      = (vol.firstData + (cluster - 2 + 1) * vol.spc) * vol.bps := by
        rw [clusterStart, Volume.clusterSize, ← Nat.add_mul, Nat.add_assoc, Nat.add_mul _ 1,
          Nat.one_mul]
    _ ≤ vol.total * vol.bps := Nat.mul_le_mul_right _ (by omega)
    _ ≤ data.length := hsize

/-- The data area lies within the file. -/
lemma inFile_of_inside (hvol : vol.Coherent data.length) {cluster : ℕ} (h : Inside vol cluster) :
    InFile data vol cluster := by
  obtain ⟨-, -, -, -, -, -, -, hsize, hdata, -⟩ := hvol
  exact inFile_of_fits hsize hdata h

lemma length_clusterBytes {cluster : ℕ} (h : InFile data vol cluster) :
    (clusterBytes data vol cluster).length = vol.clusterSize := length_slice_of_le h.2

end Layout

/-! ## What `chain` reads -/

section Reading

variable {data : Bytes} {vol : Volume}

/-- The clusters the loop of `chain` goes through from one cluster on, when `done` bytes of a file
are read and `seen` are the clusters behind it. -/
structure Trail (data : Bytes) (vol : Volume) (size : ℕ) (seen : List ℕ) (done : ℕ)
    (first : ℕ) (rest : List ℕ) : Prop where
  linked : (first :: rest).IsChain (Leads data vol)
  distinct : (first :: rest).Nodup
  fresh : ∀ c ∈ first :: rest, c ∉ seen
  inFile : InFile data vol first
  inside : ∀ c ∈ rest, Inside vol c
  short : done + rest.length * vol.clusterSize < size
  long : size ≤ done + (rest.length + 1) * vol.clusterSize

lemma Trail.single {size : ℕ} {seen : List ℕ} {done first : ℕ} (hfresh : first ∉ seen)
    (hin : InFile data vol first) (hshort : done < size) (hlong : size ≤ done + vol.clusterSize) :
    Trail data vol size seen done first [] where
  linked := .singleton _
  distinct := List.nodup_singleton _
  fresh := fun c hc => by
    obtain rfl := List.mem_singleton.1 hc
    exact hfresh
  inFile := hin
  inside := fun c hc => absurd hc List.not_mem_nil
  short := by simpa using hshort
  long := by simpa using hlong

lemma trail_cons_iff (hvol : vol.Coherent data.length) {size : ℕ} {seen : List ℕ}
    {done first next : ℕ} {rest : List ℕ} :
    Trail data vol size seen done first (next :: rest) ↔
      first ∉ seen ∧ InFile data vol first ∧ Leads data vol first next ∧ Inside vol next ∧
        Trail data vol size (first :: seen) (done + vol.clusterSize) next rest := by
  constructor
  · intro h
    obtain ⟨hleads, hlinked⟩ := List.isChain_cons_cons.1 h.linked
    obtain ⟨hfirst, hdistinct⟩ := List.nodup_cons.1 h.distinct
    refine ⟨h.fresh _ List.mem_cons_self, h.inFile, hleads, h.inside _ List.mem_cons_self,
      hlinked, hdistinct, ?_, inFile_of_inside hvol (h.inside _ List.mem_cons_self),
      fun c hc => h.inside c (List.mem_cons_of_mem _ hc), ?_, ?_⟩
    · intro c hc hmem
      rcases List.mem_cons.1 hmem with rfl | hmem
      · exact hfirst hc
      · exact h.fresh c (List.mem_cons_of_mem _ hc) hmem
    · have := h.short
      rw [List.length_cons, Nat.succ_mul] at this
      omega
    · have := h.long
      rw [List.length_cons, Nat.succ_mul] at this
      omega
  · rintro ⟨hseen, hin, hleads, hinside, h⟩
    refine ⟨.cons_cons hleads h.linked, List.nodup_cons.2 ⟨fun hmem => ?_, h.distinct⟩, ?_, hin, ?_,
      ?_, ?_⟩
    · exact h.fresh _ hmem List.mem_cons_self
    · intro c hc
      rcases List.mem_cons.1 hc with rfl | hc
      · exact hseen
      · exact fun hmem => h.fresh c hc (List.mem_cons_of_mem _ hmem)
    · intro c hc
      rcases List.mem_cons.1 hc with rfl | hc
      · exact hinside
      · exact h.inside c hc
    · have := h.short
      rw [List.length_cons, Nat.succ_mul]
      omega
    · have := h.long
      rw [List.length_cons, Nat.succ_mul]
      omega

lemma chainFrom_some_eq_ok (hvol : vol.Coherent data.length) {size remaining : ℕ}
    {seen : List ℕ} {out content : Bytes} {first : ℕ} (hshort : out.length < size) :
    chainFrom data vol (some size) remaining seen out first = .ok content ↔
      ∃ rest, Trail data vol size seen out.length first rest ∧ rest.length < remaining ∧
        content = (out ++ (first :: rest).flatMap (clusterBytes data vol)).take size := by
  induction remaining generalizing seen out first with
  | zero =>
      constructor
      · intro h
        cases h
      · rintro ⟨rest, -, hlen, -⟩
        omega
  | succ remaining ih =>
      rw [chainFrom]
      by_cases hseen : first ∈ seen
      · rw [if_pos hseen]
        constructor
        · intro h
          cases h
        · rintro ⟨rest, htrail, -⟩
          exact absurd hseen (htrail.fresh _ List.mem_cons_self)
      rw [if_neg hseen, bind_eq_ok]
      constructor
      · rintro ⟨block, hblock, h⟩
        obtain ⟨hin, rfl⟩ := clusterData_eq_ok.1 hblock
        have hlen := length_clusterBytes hin
        simp only [Option.any_some, List.length_append, hlen, decide_eq_true_eq,
          Option.getD_some, Option.isSome_some, if_true] at h
        split at h
        · next hlong =>
            cases h
            refine ⟨[], .single hseen hin hshort hlong, Nat.zero_lt_succ _, ?_⟩
            rw [List.flatMap_singleton]
        · next hlong =>
            obtain ⟨next, hnext, h⟩ := bind_eq_ok.1 h
            cases next with
            | none => cases h
            | some next =>
                obtain ⟨hleads, hinside⟩ := nextCluster_eq_some.1 hnext
                have hout : (out ++ clusterBytes data vol first).length < size := by
                  rw [List.length_append, hlen]
                  omega
                obtain ⟨rest, htrail, hcount, rfl⟩ := (ih hout).1 h
                rw [List.length_append, hlen] at htrail
                refine ⟨next :: rest, (trail_cons_iff hvol).2 ⟨hseen, hin, hleads, hinside, htrail⟩,
                  Nat.succ_lt_succ hcount, ?_⟩
                simp only [List.flatMap_cons, List.append_assoc]
      · rintro ⟨rest, htrail, hcount, rfl⟩
        have hin := htrail.inFile
        have hlen := length_clusterBytes hin
        refine ⟨_, clusterData_eq_ok.2 ⟨hin, rfl⟩, ?_⟩
        simp only [Option.any_some, List.length_append, hlen, decide_eq_true_eq,
          Option.getD_some, Option.isSome_some, if_true]
        cases rest with
        | nil =>
            have hlong := htrail.long
            rw [if_pos (by simpa using hlong), List.flatMap_singleton]
            rfl
        | cons next rest =>
            obtain ⟨-, -, hleads, hinside, hrest⟩ := (trail_cons_iff hvol).1 htrail
            have hmore : out.length + vol.clusterSize < size := by
              have := hrest.short
              omega
            rw [if_neg (by omega), nextCluster_eq_some.2 ⟨hleads, hinside⟩]
            have hout : (out ++ clusterBytes data vol first).length < size := by
              rw [List.length_append, hlen]
              exact hmore
            refine (ih hout).2 ⟨rest, ?_, Nat.lt_of_succ_lt_succ hcount, ?_⟩
            · rw [List.length_append, hlen]
              exact hrest
            · simp only [List.flatMap_cons, List.append_assoc]

/-- No more clusters than the data area has. -/
lemma Trail.length_rest_le {size : ℕ} {seen : List ℕ} {done first : ℕ} {rest : List ℕ}
    (h : Trail data vol size seen done first rest) : rest.length ≤ vol.clusters := by
  have hsub : rest ⊆ List.range' 2 vol.clusters := by
    intro c hc
    have hinside := h.inside c hc
    rw [List.mem_range'_1]
    exact ⟨hinside.1, by have := hinside.2; omega⟩
  have hlen := (List.subperm_of_subset (List.nodup_cons.1 h.distinct).2 hsub).length_le
  rwa [List.length_range'] at hlen

/-- What `chain` returns for a file that is not empty. -/
theorem chain_eq_ok_iff (hvol : vol.Coherent data.length) {start size : ℕ} {content : Bytes}
    (hsize : size ≠ 0) :
    chain data vol start (some size) = .ok content ↔
      ∃ rest, Trail data vol size [] 0 start rest ∧
        content = ((start :: rest).flatMap (clusterBytes data vol)).take size := by
  unfold chain
  by_cases hstart : start < 2
  · rw [if_pos hstart, if_pos (by simpa using hsize)]
    constructor
    · intro h
      cases h
    · rintro ⟨rest, htrail, -⟩
      have := htrail.inFile.1
      omega
  · rw [if_neg hstart, chainFrom_some_eq_ok hvol (Nat.pos_of_ne_zero hsize)]
    constructor
    · rintro ⟨rest, htrail, -, hcontent⟩
      exact ⟨rest, htrail, hcontent⟩
    · rintro ⟨rest, htrail, hcontent⟩
      exact ⟨rest, htrail, Nat.lt_succ_of_le htrail.length_rest_le, hcontent⟩

lemma chain_zero_eq_ok {start : ℕ} {content : Bytes}
    (h : chain data vol start (some 0) = .ok content) : content = [] := by
  unfold chain at h
  split at h
  · rw [if_neg (by simp)] at h
    exact (Except.ok.inj h).symm
  · rw [chainFrom, if_neg List.not_mem_nil, bind_eq_ok] at h
    obtain ⟨block, -, h⟩ := h
    rw [if_pos (by simp)] at h
    exact (Except.ok.inj h).symm

lemma chain_iff_trail (hvol : vol.Coherent data.length) {start size : ℕ} {clusters : List ℕ} :
    Chain data vol start clusters ∧
        clusters.length = (size + vol.clusterSize - 1) / vol.clusterSize ↔
      Inside vol start ∧ ∃ rest, Trail data vol size [] 0 start rest ∧
        clusters = start :: rest := by
  have hpos := hvol.clusterSize_pos
  constructor
  · rintro ⟨hchain, hlen⟩
    cases clusters with
    | nil => cases hchain.head
    | cons first rest =>
        obtain rfl : first = start := Option.some.inj hchain.head
        have hfirst := hchain.inside _ List.mem_cons_self
        have hle := Nat.div_mul_le_self (size + vol.clusterSize - 1) vol.clusterSize
        have hlt := Nat.lt_div_mul_add hpos (a := size + vol.clusterSize - 1)
        rw [← hlen, List.length_cons, Nat.succ_mul] at hle hlt
        refine ⟨hfirst, rest, ⟨hchain.linked, hchain.distinct, fun _ _ => List.not_mem_nil,
          inFile_of_inside hvol hfirst, fun c hc => hchain.inside c (List.mem_cons_of_mem _ hc),
          ?_, ?_⟩, rfl⟩
        · omega
        · rw [Nat.succ_mul]
          omega
  · rintro ⟨hfirst, rest, htrail, rfl⟩
    refine ⟨⟨rfl, htrail.linked, ?_, htrail.distinct⟩, ?_⟩
    · intro c hc
      rcases List.mem_cons.1 hc with rfl | hc
      · exact hfirst
      · exact htrail.inside c hc
    · have hshort := htrail.short
      have hlong := htrail.long
      rw [List.length_cons]
      refine (Nat.div_eq_of_lt_le ?_ ?_).symm
      · rw [Nat.succ_mul]
        omega
      · rw [Nat.succ_mul] at hlong ⊢
        rw [Nat.succ_mul]
        omega

/-- A file has the content `chain` returns, if its first cluster is one of the data area. -/
theorem content_iff (hvol : vol.Coherent data.length) {start size : ℕ} {content : Bytes}
    (hsize : size ≠ 0) :
    Content data vol start size content ↔
      start < vol.clusters + 2 ∧ chain data vol start (some size) = .ok content := by
  rw [Content, if_neg hsize, chain_eq_ok_iff hvol hsize]
  constructor
  · rintro ⟨clusters, hchain, hlen, rfl⟩
    obtain ⟨hfirst, rest, htrail, rfl⟩ := (chain_iff_trail hvol).1 ⟨hchain, hlen⟩
    exact ⟨hfirst.2, rest, htrail, rfl⟩
  · rintro ⟨hstart, rest, htrail, rfl⟩
    obtain ⟨hchain, hlen⟩ := (chain_iff_trail hvol).2
      ⟨⟨htrail.inFile.1, hstart⟩, rest, htrail, rfl⟩
    exact ⟨_, hchain, hlen, rfl⟩

end Reading

end Fat

end AVBox
