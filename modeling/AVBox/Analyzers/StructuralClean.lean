import AVBox.Analyzers.FatRows
import AVBox.Analyzers.Structural

/-!
# Walks of the FAT validator that find nothing

What the validator has found stays found, so a walk without findings has found nothing at any row it
came to.  It has followed the same chains that the enumerator follows (`chain_of_clean`), and what
it has examined can be read (`readable_of_done`).
-/

namespace AVBox

namespace StructuralValidator

open Binary Fallible Walk

/-! ## Findings stay -/

section Findings

variable {maxNodes : ℕ} {data : Bytes} {vol : Fat.Volume}

lemma fatChainFrom_findings {owner : PyStr} {remaining : ℕ} {seen : List ℕ} {out : Bytes}
    {current : ℕ} (state : FatState) :
    state.findings <+:
      (fatChainFrom maxNodes data vol owner remaining seen out current state).2.findings := by
  induction remaining generalizing seen out current state with
  | zero => exact List.prefix_append _ _
  | succ remaining ih =>
      rw [fatChainFrom]
      simp only []
      split_ifs
      · exact List.prefix_rfl
      · exact List.prefix_append _ _
      · exact List.prefix_append _ _
      · exact List.prefix_append _ _
      · exact List.prefix_rfl
      · exact List.prefix_append _ _
      · exact List.prefix_append _ _
      · exact ih { state with
          reachable := current :: state.reachable
          used := (current, owner) :: state.used }

lemma fatChain_keeps {start : ℕ} {owner : PyStr} {wanted : Option ℕ} {state state' : FatState}
    {content : Bytes} (h : fatChain maxNodes data vol start owner wanted state =
      (content, state')) :
    state.findings <+: state'.findings := by
  obtain rfl : _ = state' := congrArg Prod.snd h
  unfold fatChain
  simp only []
  split_ifs
  · exact (fatChainFrom_findings state).trans (List.prefix_append _ _)
  · exact fatChainFrom_findings state

/-- What a look at a row does. -/
inductive Examined (maxNodes : ℕ) (data : Bytes) (vol : Fat.Volume) (state : FatState)
    (item : FatItem) : Turn FatState FatItem → Prop
  | dots : item.name ∈ PyStr.dots → Examined maxNodes data vol state item (.stay state)
  | again : item.name ∉ PyStr.dots → item.isDirectory = true → item.start ∈ state.dirs →
      Examined maxNodes data vol state item (.stay (state.report "FAT_DIRECTORY_LOOP"))
  | file {content : Bytes} {state' : FatState} : item.name ∉ PyStr.dots →
      item.isDirectory = false →
      fatChain maxNodes data vol item.start item.owner (some item.size) state =
        (content, state') →
      Examined maxNodes data vol state item (.stay state')
  | directory {content : Bytes} {state' : FatState} : item.name ∉ PyStr.dots →
      item.isDirectory = true → item.start ∉ state.dirs →
      fatChain maxNodes data vol item.start item.owner none
        { state with dirs := item.start :: state.dirs } = (content, state') →
      Examined maxNodes data vol state item (.enter state' (fatRows maxNodes item.owner content))

section Equations

variable {state : FatState} {item : FatItem}

lemma fatLook_dots (hdots : item.name ∈ PyStr.dots) :
    fatLook maxNodes data vol state item = .ok (.stay state) := by
  rw [fatLook, if_pos hdots]

lemma fatLook_again (hdots : item.name ∉ PyStr.dots) (hdir : item.isDirectory = true)
    (hseen : item.start ∈ state.dirs) :
    fatLook maxNodes data vol state item = .ok (.stay (state.report "FAT_DIRECTORY_LOOP")) := by
  rw [fatLook, if_neg hdots, if_pos hdir, if_pos hseen]

lemma fatLook_file {content : Bytes} {state' : FatState} (hdots : item.name ∉ PyStr.dots)
    (hdir : item.isDirectory = false)
    (hchain : fatChain maxNodes data vol item.start item.owner (some item.size) state =
      (content, state')) :
    fatLook maxNodes data vol state item = .ok (.stay state') := by
  rw [fatLook, if_neg hdots, hdir, if_neg Bool.false_ne_true, hchain]

lemma fatLook_directory {content : Bytes} {state' : FatState} (hdots : item.name ∉ PyStr.dots)
    (hdir : item.isDirectory = true) (hseen : item.start ∉ state.dirs)
    (hchain : fatChain maxNodes data vol item.start item.owner none
      { state with dirs := item.start :: state.dirs } = (content, state')) :
    fatLook maxNodes data vol state item =
      .ok (.enter state' (fatRows maxNodes item.owner content)) := by
  -- the chain is only compared, and not unfolded, when its start is a variable
  obtain ⟨start, hstart⟩ : ∃ start, start = item.start := ⟨_, rfl⟩
  rw [← hstart] at hchain
  rw [fatLook, if_neg hdots, if_pos hdir, if_neg hseen, ← hstart]
  simp only [hchain]

end Equations

lemma examined_of_look {state : FatState} {item : FatItem} {turn : Turn FatState FatItem}
    (h : fatLook maxNodes data vol state item = .ok turn) :
    Examined maxNodes data vol state item turn := by
  by_cases hdots : item.name ∈ PyStr.dots
  · rw [fatLook_dots hdots] at h
    obtain rfl := Except.ok.inj h
    exact .dots hdots
  cases hdir : item.isDirectory with
  | true =>
      by_cases hseen : item.start ∈ state.dirs
      · rw [fatLook_again hdots hdir hseen] at h
        obtain rfl := Except.ok.inj h
        exact .again hdots hdir hseen
      · rcases hchain : fatChain maxNodes data vol item.start item.owner none
          { state with dirs := item.start :: state.dirs } with ⟨content, state'⟩
        rw [fatLook_directory hdots hdir hseen hchain] at h
        obtain rfl := Except.ok.inj h
        exact .directory hdots hdir hseen hchain
  | false =>
      rcases hchain : fatChain maxNodes data vol item.start item.owner (some item.size) state with
        ⟨content, state'⟩
      rw [fatLook_file hdots hdir hchain] at h
      obtain rfl := Except.ok.inj h
      exact .file hdots hdir hchain

/-- The findings when a look at a row is over. -/
def turnFindings : Turn FatState FatItem → List String
  | .stay state => state.findings
  | .enter state _ => state.findings

lemma fatLook_findings {state : FatState} {item : FatItem} {turn : Turn FatState FatItem}
    (h : fatLook maxNodes data vol state item = .ok turn) :
    state.findings <+: turnFindings turn := by
  cases examined_of_look h with
  | dots _ => exact List.prefix_rfl
  | again _ _ _ => exact List.prefix_append _ _
  | file _ _ hchain => exact fatChain_keeps hchain
  | directory _ _ _ hchain =>
      have hprefix := fatChain_keeps hchain
      exact hprefix

lemma done_findings {frames : ℕ} {state final : FatState} {items : List FatItem}
    (h : Done (fatLook maxNodes data vol) frames state items final) :
    state.findings <+: final.findings := by
  induction h with
  | nil => exact List.prefix_rfl
  | stay hlook _ ih => exact (fatLook_findings hlook).trans ih
  | enter hlook _ _ hinner hrest => exact (fatLook_findings hlook).trans (hinner.trans hrest)

end Findings

/-! ## Chains -/

section Chains

variable {maxNodes : ℕ} {data : Bytes} {vol : Fat.Volume}

lemma report_ne_nil {state : FatState} {finding : String} :
    (state.report finding).findings ≠ [] := by
  simp [FatState.report]

lemma guarded_entry {short : Prop} [Decidable short] {exc : Exc} {entry mark : ℕ}
    (h : 2 ≤ if short then 1 else entry) :
    (if short then .error exc else .ok (entry, decide (entry ≥ mark)) : Except Exc (ℕ × Bool)) =
      .ok (if short then 1 else entry, decide ((if short then 1 else entry) ≥ mark)) := by
  by_cases hshort : short
  · rw [if_pos hshort] at h
    omega
  · simp only [hshort, if_false]

/-- An entry that the validator takes for a reference or an end mark is what the enumerator
reads. -/
lemma readEntry_of_fatValue {cluster : ℕ} (h : 2 ≤ fatValue data vol cluster) :
    Fat.readEntry data vol cluster =
      .ok (fatValue data vol cluster,
        decide (fatValue data vol cluster ≥ eofMark vol.variant)) := by
  unfold Fat.readEntry
  unfold fatValue at h ⊢
  generalize vol.variant = variant at h ⊢
  cases variant with
  | fat12 => exact guarded_entry h
  | fat16 => exact guarded_entry h
  | fat32 => exact guarded_entry h

/-- The clusters of the data area lie within the file. -/
def DataFits (data : Bytes) (vol : Fat.Volume) : Prop :=
  ∀ cluster, Fat.Inside vol cluster → Fat.InFile data vol cluster

/-- `_fat_chain` goes on from its checks of a cluster. -/
structure Passes (vol : Fat.Volume) (owner : PyStr) (seen : List ℕ) (current : ℕ)
    (state : FatState) : Prop where
  start : 2 ≤ current
  fresh : current ∉ seen
  range : current < vol.clusters + 2
  unused : ¬state.usedByOther current owner = true

/-- The state after a cluster. -/
def FatState.claim (state : FatState) (current : ℕ) (owner : PyStr) : FatState :=
  { state with
    reachable := current :: state.reachable
    used := (current, owner) :: state.used }

section Step

variable {owner : PyStr} {remaining : ℕ} {seen : List ℕ} {out : Bytes} {current : ℕ}
  {state : FatState}

lemma fatChainFrom_passes (h : Passes vol owner seen current state) :
    fatChainFrom maxNodes data vol owner (remaining + 1) seen out current state =
      if fatValue data vol current ≥ eofMark vol.variant then
        (out ++ Fat.clusterBytes data vol current, state.claim current owner)
      else if fatValue data vol current < 2 ∨ fatValue data vol current ≥ vol.clusters + 2 then
        (out ++ Fat.clusterBytes data vol current,
          (state.claim current owner).report "FAT_CLUSTER_REFERENCE_INVALID")
      else if (current :: seen).length > maxNodes then
        (out ++ Fat.clusterBytes data vol current,
          (state.claim current owner).report "FAT_CHAIN_LIMIT")
      else fatChainFrom maxNodes data vol owner remaining (current :: seen)
        (out ++ Fat.clusterBytes data vol current) (fatValue data vol current)
        (state.claim current owner) := by
  have := h.start
  have := h.range
  rw [fatChainFrom, if_neg (by omega), if_neg h.fresh, if_neg (by omega), if_neg h.unused]
  rfl

/-- Without a finding the validator has passed its checks, or there is no cluster. -/
lemma passes_of_clean
    (hclean : (fatChainFrom maxNodes data vol owner (remaining + 1) seen out current
      state).2.findings = []) (hstart : 2 ≤ current) : Passes vol owner seen current state := by
  rw [fatChainFrom, if_neg (by omega)] at hclean
  by_cases hseen : current ∈ seen
  · rw [if_pos hseen] at hclean
    exact absurd hclean report_ne_nil
  rw [if_neg hseen] at hclean
  by_cases hrange : current ≥ vol.clusters + 2
  · rw [if_pos hrange] at hclean
    exact absurd hclean report_ne_nil
  rw [if_neg hrange] at hclean
  by_cases hused : state.usedByOther current owner = true
  · rw [if_pos hused] at hclean
    exact absurd hclean report_ne_nil
  exact ⟨hstart, hseen, by omega, hused⟩

/-- How a chain goes on when it ends without a finding. -/
lemma clean_cases
    (hclean : (fatChainFrom maxNodes data vol owner (remaining + 1) seen out current
      state).2.findings = []) (hstart : 2 ≤ current) :
    fatValue data vol current ≥ eofMark vol.variant ∨
      ¬fatValue data vol current ≥ eofMark vol.variant ∧
        ¬(fatValue data vol current < 2 ∨ fatValue data vol current ≥ vol.clusters + 2) ∧
        ¬(current :: seen).length > maxNodes ∧
        (fatChainFrom maxNodes data vol owner remaining (current :: seen)
          (out ++ Fat.clusterBytes data vol current) (fatValue data vol current)
          (state.claim current owner)).2.findings = [] := by
  rw [fatChainFrom_passes (passes_of_clean hclean hstart)] at hclean
  by_cases heof : fatValue data vol current ≥ eofMark vol.variant
  · exact .inl heof
  rw [if_neg heof] at hclean
  by_cases hreference : fatValue data vol current < 2 ∨ fatValue data vol current ≥ vol.clusters + 2
  · rw [if_pos hreference] at hclean
    exact absurd hclean report_ne_nil
  rw [if_neg hreference] at hclean
  by_cases hlimit : (current :: seen).length > maxNodes
  · rw [if_pos hlimit] at hclean
    exact absurd hclean report_ne_nil
  rw [if_neg hlimit] at hclean
  exact .inr ⟨heof, hreference, hlimit, hclean⟩

end Step

/-- A chain that the validator goes through without a finding is one that the enumerator reads. -/
lemma chainFrom_of_clean (hfits : DataFits data vol) {owner : PyStr} {remaining : ℕ}
    {seen : List ℕ} {out : Bytes} {current : ℕ} {state : FatState} (hstart : 2 ≤ current)
    (hclean : (fatChainFrom maxNodes data vol owner remaining seen out current state).2.findings =
      []) :
    Fat.chainFrom data vol none remaining seen out current =
      .ok (fatChainFrom maxNodes data vol owner remaining seen out current state).1 := by
  induction remaining generalizing seen out current state with
  | zero => exact absurd hclean report_ne_nil
  | succ remaining ih =>
      have hpasses := passes_of_clean hclean hstart
      have hblock : Fat.clusterData data vol current = .ok (Fat.clusterBytes data vol current) :=
        Fat.clusterData_eq_ok.2 ⟨hfits current ⟨hstart, hpasses.range⟩, rfl⟩
      have hmark : 2 ≤ eofMark vol.variant := by
        cases vol.variant <;> decide
      rw [fatChainFrom_passes hpasses, Fat.chainFrom, if_neg hpasses.fresh, hblock]
      simp only [Option.any_none, Bool.false_eq_true, if_false, bind, Except.bind, Fat.nextCluster]
      rcases clean_cases hclean hstart with heof | ⟨heof, hreference, hlimit, hrest⟩
      · rw [if_pos heof, readEntry_of_fatValue (by omega)]
        simp only [heof, decide_true, if_true, pure, Except.pure, Option.isSome_none,
          Bool.false_eq_true, if_false]
      · rw [if_neg heof, if_neg hreference, if_neg hlimit, readEntry_of_fatValue (by omega)]
        simp only [heof, decide_false, Bool.false_eq_true, if_false, hreference, pure, Except.pure]
        exact ih (by omega) hrest

/-- What the enumerator reads of a chain begins with what it has read before. -/
lemma chainFrom_extends {remaining : ℕ} {seen : List ℕ} {out full : Bytes} {current : ℕ}
    (h : Fat.chainFrom data vol none remaining seen out current = .ok full) : out <+: full := by
  induction remaining generalizing seen out current with
  | zero => cases h
  | succ remaining ih =>
      rw [Fat.chainFrom] at h
      split at h
      · cases h
      obtain ⟨block, -, h⟩ := bind_eq_ok.1 h
      rw [if_neg (by simp)] at h
      obtain ⟨next, -, h⟩ := bind_eq_ok.1 h
      cases next with
      | none =>
          obtain rfl := Except.ok.inj h
          exact List.prefix_append _ _
      | some next => exact (List.prefix_append _ _).trans (ih h)

/-- A file is the beginning of its chain. -/
lemma chainFrom_some_of_none {remaining : ℕ} {seen : List ℕ} {out full : Bytes} {current size : ℕ}
    (h : Fat.chainFrom data vol none remaining seen out current = .ok full)
    (hsize : size ≤ full.length) :
    Fat.chainFrom data vol (some size) remaining seen out current = .ok (full.take size) := by
  induction remaining generalizing seen out current with
  | zero => cases h
  | succ remaining ih =>
      rw [Fat.chainFrom] at h ⊢
      by_cases hseen : current ∈ seen
      · rw [if_pos hseen] at h
        cases h
      rw [if_neg hseen] at h ⊢
      obtain ⟨block, hblock, h⟩ := bind_eq_ok.1 h
      rw [if_neg (by simp)] at h
      obtain ⟨next, hnext, h⟩ := bind_eq_ok.1 h
      refine bind_eq_ok.2 ⟨block, hblock, ?_⟩
      by_cases hlong : size ≤ (out ++ block).length
      · rw [if_pos (by simpa using hlong)]
        have hpre : out ++ block <+: full := by
          cases next with
          | none =>
              obtain rfl := Except.ok.inj h
              exact List.prefix_rfl
          | some next => exact chainFrom_extends h
        obtain ⟨more, rfl⟩ := hpre
        show Except.ok _ = _
        rw [List.take_append_of_le_length hlong]
        rfl
      · rw [if_neg (by simpa using hlong)]
        refine bind_eq_ok.2 ⟨next, hnext, ?_⟩
        cases next with
        | none =>
            obtain rfl := Except.ok.inj h
            exact absurd hsize hlong
        | some next => exact ih h

/-- A chain without a finding has none before its length is compared. -/
lemma clean_of_fatChain {start : ℕ} {owner : PyStr} {wanted : Option ℕ} {state : FatState}
    (hclean : (fatChain maxNodes data vol start owner wanted state).2.findings = []) :
    (fatChainFrom maxNodes data vol owner (vol.clusters + 1) [] []
      start state).2.findings = [] := by
  refine List.prefix_nil.1 (hclean ▸ ?_)
  unfold fatChain
  simp only []
  split_ifs
  · exact List.prefix_append _ _
  · exact List.prefix_rfl

/-- A chain that the validator goes through without a finding is one that the enumerator reads. -/
theorem chain_of_clean (hfits : DataFits data vol) {start : ℕ} {owner : PyStr}
    {wanted : Option ℕ} {state : FatState}
    (hclean : (fatChain maxNodes data vol start owner wanted state).2.findings = []) :
    Fat.chain data vol start wanted =
      .ok (fatChain maxNodes data vol start owner wanted state).1 := by
  have hfrom := clean_of_fatChain hclean
  have hlong : wanted.any ((fatChainFrom maxNodes data vol owner (vol.clusters + 1) [] [] start
      state).1.length < ·) = false := by
    by_contra h
    rw [Bool.not_eq_false] at h
    unfold fatChain at hclean
    simp only [h, if_true] at hclean
    exact absurd hclean report_ne_nil
  unfold fatChain Fat.chain
  simp only []
  by_cases hstart : start < 2
  · rw [if_pos hstart]
    have hnone : fatChainFrom maxNodes data vol owner (vol.clusters + 1) [] [] start state =
        ([], state) := by
      rw [fatChainFrom, if_pos hstart]
    rw [hnone] at hlong ⊢
    cases wanted with
    | none => rfl
    | some size =>
        have hzero : size = 0 := by simpa using hlong
        rw [if_neg (by simp [hzero])]
        simp only [List.take_nil]
  · rw [if_neg hstart]
    have hnone := chainFrom_of_clean hfits (by omega) hfrom
    cases wanted with
    | none => exact hnone
    | some size => exact chainFrom_some_of_none hnone (by simpa using hlong)

end Chains

/-! ## What a walk without findings examines -/

section Rows

variable {maxNodes : ℕ} {data : Bytes} {vol : Fat.Volume}

/-- A row and all the rows below it can be read, as far as the validator examines them. -/
inductive Readable (maxNodes : ℕ) (data : Bytes) (vol : Fat.Volume) : FatItem → Prop
  | dots {item : FatItem} : item.name ∈ PyStr.dots → Readable maxNodes data vol item
  | file {item : FatItem} {content : Bytes} : item.isDirectory = false →
      Fat.chain data vol item.start (some item.size) = .ok content → Readable maxNodes data vol item
  | directory {item : FatItem} {content : Bytes} : item.isDirectory = true →
      Fat.chain data vol item.start none = .ok content →
      (∀ inner ∈ fatRows maxNodes item.owner content, Readable maxNodes data vol inner) →
      Readable maxNodes data vol item

/-- What a walk without findings has come to can be read. -/
theorem readable_of_done (hfits : DataFits data vol) {frames : ℕ} {state final : FatState}
    {items : List FatItem} (h : Done (fatLook maxNodes data vol) frames state items final)
    (hclean : final.findings = []) : ∀ item ∈ items, Readable maxNodes data vol item := by
  induction h with
  | nil => exact fun item hitem => absurd hitem List.not_mem_nil
  | @stay frames state state' final item rest hlook hdone ih =>
      have hstay : state'.findings = [] := List.prefix_nil.1 (hclean ▸ done_findings hdone)
      refine List.forall_mem_cons.2 ⟨?_, ih hclean⟩
      cases examined_of_look hlook with
      | dots hdots => exact .dots hdots
      | again _ _ _ => exact absurd hstay report_ne_nil
      | file _ hfile hchain =>
          have hread := chain_of_clean hfits (by rw [hchain]; exact hstay)
          exact .file hfile hread
  | @enter frames state state' inside final item inner rest hlook hinner hrest ihinner ihrest =>
      have hinside : inside.findings = [] := List.prefix_nil.1 (hclean ▸ done_findings hrest)
      have henter : state'.findings = [] := List.prefix_nil.1 (hinside ▸ done_findings hinner)
      refine List.forall_mem_cons.2 ⟨?_, ihrest hclean⟩
      cases examined_of_look hlook with
      | directory _ hdir _ hchain =>
          have hread := chain_of_clean hfits (by rw [hchain]; exact henter)
          rw [hchain] at hread
          exact .directory hdir hread (ihinner hinside)

end Rows

/-! ## The rows of the enumerator -/

section Listings

variable {maxNodes : ℕ} {data : Bytes} {vol : Fat.Volume}

/-- The rows of a directory up to its end mark. -/
def marked (content : Bytes) : List Bytes :=
  ((Fat.rows content).takeWhile fun item => u8 item.1 0 ≠ 0).map Prod.fst

lemma takeWhile_take {α : Type} (p : α → Bool) (n : ℕ) (l : List α) :
    (l.take n).takeWhile p = (l.takeWhile p).take n := by
  induction l generalizing n with
  | nil => simp
  | cons a l ih =>
      cases n with
      | zero => simp
      | succ n => cases hp : p a <;> simp [hp, ih]

/-- The limit takes away the rows behind the first `maxNodes`. -/
lemma fatRows_eq (maxNodes : ℕ) (head : PyStr) (content : Bytes) :
    fatRows maxNodes head content =
      (((marked content).take maxNodes).filter fun raw => !fatSkipped raw).map
        fun raw => ⟨raw, head⟩ := by
  rw [fatRows, takeWhile_take, marked, ← List.map_take, List.filter_map, List.map_map]
  rfl

lemma mem_fatRows {head : PyStr} {content : Bytes} {item : FatItem} :
    item ∈ fatRows maxNodes head content ↔
      item.raw ∈ (marked content).take maxNodes ∧ fatSkipped item.raw = false ∧
        item.head = head := by
  rw [fatRows_eq, List.mem_map]
  simp only [List.mem_filter, Bool.not_eq_true']
  constructor
  · rintro ⟨raw, ⟨hraw, hlive⟩, rfl⟩
    exact ⟨hraw, hlive, rfl⟩
  · rintro ⟨hraw, hlive, rfl⟩
    exact ⟨item.raw, ⟨hraw, hlive⟩, rfl⟩

/-- What the enumerator lists are the rows that the validator does not skip. -/
lemma mem_listing_raw {directory : Option ℕ} {head : PyStr} {content raw : Bytes} :
    (∃ row ∈ Fat.listing directory head content, row.raw = raw) ↔
      raw ∈ marked content ∧ fatSkipped raw = false := by
  have hraws : (Fat.listing directory head content).map Fat.Row.raw =
      (marked content).filter fun raw => !fatSkipped raw := by
    have h := congrArg (List.map Prod.fst)
      (Fat.readRows_raw directory head [] (Fat.rows content))
    rw [List.map_map] at h
    refine Eq.trans h ?_
    rw [marked, List.filter_map]
    congr 1
    refine List.filter_congr fun item _ => ?_
    simp only [fatSkipped, Function.comp_apply, Bool.not_or, decide_not]
  rw [← List.mem_map, hraws, List.mem_filter, Bool.not_eq_true']

/-- A row as the validator sees it. -/
def asItem (row : Fat.Row) : FatItem := ⟨row.raw, row.head⟩

/-- The directories that the validator examines without a limit. -/
inductive ExaminedDirectory (data : Bytes) (vol : Fat.Volume) : Option ℕ → Prop
  | root : ExaminedDirectory data vol none
  | sub {directory : Option ℕ} {row : Fat.Row} :
      ExaminedDirectory data vol directory → row ∈ Fat.rowsOf data vol directory →
      row.isDirectory → (asItem row).name ∉ PyStr.dots → ExaminedDirectory data vol (some row.start)

/-- Whether a row can be read does not depend on where its directory is. -/
lemma Readable.of_raw {item item' : FatItem} (h : Readable maxNodes data vol item)
    (hraw : item'.raw = item.raw) : Readable maxNodes data vol item' := by
  induction h generalizing item' with
  | dots hdots => exact .dots (by rw [FatItem.name, hraw]; exact hdots)
  | @file item content hfile hchain =>
      have hchain' : Fat.chain data vol item'.start (some item'.size) = .ok content := by
        rw [FatItem.start, FatItem.size, hraw]
        exact hchain
      exact .file (by rw [FatItem.isDirectory, hraw]; exact hfile) hchain'
  | @directory item content hdir hchain _ ih =>
      refine .directory (by rw [FatItem.isDirectory, hraw]; exact hdir)
        (by rw [FatItem.start, hraw]; exact hchain) fun inner hinner => ?_
      obtain ⟨hmem, hlive, -⟩ := mem_fatRows.1 hinner
      exact ih ⟨inner.raw, item.owner⟩ (mem_fatRows.2 ⟨hmem, hlive, rfl⟩) rfl

/-- No directory that the validator examines has more than `maxNodes` rows. -/
def RowsWithin (maxNodes : ℕ) (data : Bytes) (vol : Fat.Volume) : Prop :=
  ∀ directory, ExaminedDirectory data vol directory →
    ∀ content, Fat.directoryContent data vol directory = .ok content →
      (marked content).length ≤ maxNodes

/-- The rows of an examined directory can be read, if those of the root can. -/
lemma readable_of_examined (hlimit : RowsWithin maxNodes data vol) {root : Bytes}
    (hroot : Fat.rootContent data vol = .ok root)
    (hread : ∀ item ∈ fatRows maxNodes [] root, Readable maxNodes data vol item)
    {directory : Option ℕ} (hexamined : ExaminedDirectory data vol directory) :
    ∀ row ∈ Fat.rowsOf data vol directory, Readable maxNodes data vol (asItem row) := by
  have hlisted : ∀ {directory : Option ℕ} {content : Bytes} {head : PyStr},
      ExaminedDirectory data vol directory →
      Fat.directoryContent data vol directory = .ok content →
      (∀ item ∈ fatRows maxNodes head content, Readable maxNodes data vol item) →
      ∀ row ∈ Fat.rowsOf data vol directory, Readable maxNodes data vol (asItem row) := by
    intro directory content head hexamined hcontent hread row hrow
    rw [Fat.rowsOf, hcontent] at hrow
    obtain ⟨hmem, hlive⟩ := mem_listing_raw.1 ⟨row, hrow, rfl⟩
    refine (hread ⟨row.raw, head⟩ (mem_fatRows.2 ⟨?_, hlive, rfl⟩)).of_raw rfl
    rwa [List.take_of_length_le (hlimit _ hexamined _ hcontent)]
  induction hexamined with
  | root => exact hlisted .root hroot hread
  | @sub directory row hparent hrow hdir hname ih =>
      cases ih row hrow with
      | dots hdots => exact absurd hdots hname
      | file hfile _ => exact absurd (hfile.symm.trans hdir) Bool.false_ne_true
      | directory _ hchain hinner => exact hlisted (.sub hparent hrow hdir hname) hchain hinner

end Listings

/-! ## When an image is valid -/

section Valid

variable {data : Bytes} {limits : StructuralLimits} {frames : ℕ}

lemma dataFits_of_bpbValid {vol : Fat.Volume} (h : BpbValid vol data.length) :
    DataFits data vol := by
  obtain ⟨-, -, -, -, -, hdata, hsize, -⟩ := h
  exact fun cluster hcluster => Fat.inFile_of_fits hsize hdata hcluster

/-- What `_fat` has gone through when it reports a volume as valid. -/
structure FatValid (limits : StructuralLimits) (frames : ℕ) (data : Bytes) (final : FatState) :
    Prop where
  bpb : BpbValid (Fat.Volume.ofBoot data) data.length
  copies : (Fat.Volume.ofBoot data).fats < 2 ∨
    fatCopy data (Fat.Volume.ofBoot data) 0 = fatCopy data (Fat.Volume.ofBoot data) 1
  walk : walkFat limits.maxNodes data (Fat.Volume.ofBoot data) frames = .ok final
  clean : final.findings = []
  orphans : orphans data (Fat.Volume.ofBoot data) final.reachable = []

/-- What is valid or damaged is valid without findings. -/
lemma verdict_valid {findings : List String} :
    (if findings = [] then StructuralState.valid else StructuralState.damaged) = .valid ↔
      findings = [] := by
  split
  · next h => exact iff_of_true rfl h
  · next h => exact iff_of_false (by decide) h

/-- Nor has what is valid, truncated or damaged findings when it is valid. -/
lemma findings_of_valid {c : Prop} [Decidable c] {findings : List String}
    (h : (if c then StructuralState.truncated else if findings = [] then .valid else .damaged) =
      .valid) : findings = [] := by
  split at h
  · cases h
  · exact verdict_valid.1 h

lemma map_some_eq_ok {x : Except Exc StructuralValidation} {v : StructuralValidation} :
    some <$> x = .ok (some v) ↔ x = .ok v := by
  cases x with
  | ok v' =>
      constructor
      · intro h
        exact congrArg Except.ok (Option.some.inj (Except.ok.inj h))
      · rintro ⟨rfl⟩
        rfl
  | error e =>
      constructor <;> intro h <;> cases h

lemma byteLimit_not_valid {format : MediaFormat} {variant : Option String}
    {v : StructuralValidation} (h : (.ok (some (byteLimit format variant)) :
      Except Exc (Option StructuralValidation)) = .ok (some v)) : v.state ≠ .valid := by
  obtain rfl := Option.some.inj (Except.ok.inj h)
  exact StructuralState.noConfusion

lemma fat_valid_iff :
    (∃ v, fat limits frames data = .ok v ∧ v.state = .valid) ↔
      ∃ final, FatValid limits frames data final := by
  unfold fat
  simp only []
  by_cases hbpb : BpbValid (Fat.Volume.ofBoot data) data.length
  · rw [if_neg (not_not.2 hbpb)]
    constructor
    · rintro ⟨v, hv, hstate⟩
      obtain ⟨final, hwalk, hv⟩ := bind_eq_ok.1 hv
      obtain rfl := Except.ok.inj hv
      have hnone := verdict_valid.1 hstate
      rw [List.append_eq_nil_iff, List.append_eq_nil_iff] at hnone
      obtain ⟨⟨hcopies, hclean⟩, horphans⟩ := hnone
      refine ⟨final, hbpb, ?_, hwalk, hclean, ?_⟩
      · by_contra h
        rw [decide_eq_false h] at hcopies
        cases hcopies
      · by_contra h
        rw [if_neg h] at horphans
        cases horphans
    · rintro ⟨final, -, hcopies, hwalk, hclean, horphans⟩
      refine ⟨_, bind_eq_ok.2 ⟨final, hwalk, rfl⟩, ?_⟩
      rw [decide_eq_true hcopies, hclean, horphans]
      rfl
  · rw [if_pos hbpb]
    constructor
    · rintro ⟨v, hv, hstate⟩
      obtain rfl := Except.ok.inj hv
      simp only [result] at hstate
      split at hstate <;> cases hstate
    · rintro ⟨final, h⟩
      exact absurd h.bpb hbpb

lemma fat_variant {v : StructuralValidation} (h : fat limits frames data = .ok v) :
    v.format = .fat ∧ v.variant = some (Fat.Volume.ofBoot data).variant.text := by
  unfold fat at h
  simp only [] at h
  split at h
  · obtain rfl := Except.ok.inj h
    exact ⟨rfl, rfl⟩
  · obtain ⟨final, -, h⟩ := bind_eq_ok.1 h
    obtain rfl := Except.ok.inj h
    exact ⟨rfl, rfl⟩

/-- The root directory, as the validator and the enumerator read it. -/
lemma FatValid.root {final : FatState} (h : FatValid limits frames data final) :
    ∃ root state, Fat.rootContent data (Fat.Volume.ofBoot data) = .ok root ∧
      fatRoot limits.maxNodes data (Fat.Volume.ofBoot data) = (root, state) ∧
      state.findings = [] ∧
      Done (fatLook limits.maxNodes data (Fat.Volume.ofBoot data)) frames state
        (fatRows limits.maxNodes [] root) final := by
  generalize hvol : Fat.Volume.ofBoot data = vol at *
  have hdone : Done (fatLook limits.maxNodes data vol) frames (fatRoot limits.maxNodes data vol).2
      (fatRows limits.maxNodes [] (fatRoot limits.maxNodes data vol).1) final :=
    walk_eq_ok_iff.1 (hvol ▸ h.walk)
  rcases hroot : fatRoot limits.maxNodes data vol with ⟨root, state⟩
  rw [hroot] at hdone
  have hclean : state.findings = [] := List.prefix_nil.1 (h.clean ▸ done_findings hdone)
  refine ⟨root, state, ?_, rfl, hclean, hdone⟩
  unfold fatRoot at hroot
  unfold Fat.rootContent
  simp only [] at hroot ⊢
  split at hroot
  · next h32 =>
      rw [if_pos h32, chain_of_clean (dataFits_of_bpbValid (hvol ▸ h.bpb))
        (by rw [hroot]; exact hclean), hroot]
  · next h32 =>
      rw [if_neg h32, (Prod.mk.inj hroot).1]

/-- What `_adf` has gone through when it reports an image as valid. -/
structure AdfValid (limits : StructuralLimits) (frames : ℕ) (data : Bytes) (variant : AdfVariant) :
    Prop where
  size : data.length = Adf.standardSize
  boot : amigaBootChecksum (data.take 1024) = true
  dosType : Adf.variantOf data = some variant
  root : be32 (Adf.blockAt data Adf.rootKey) 0 = 2 ∧
    Adf.signedBe32 (Adf.blockAt data Adf.rootKey) 508 = 1
  checksum : Adf.blockChecksum (Adf.blockAt data Adf.rootKey) = true
  bitmap : (bitmapKeys (Adf.blockAt data Adf.rootKey)).filterMap (bitmapFinding data) = []
  walk : walkAdf limits.maxNodes data variant frames = .ok ()

lemma adf_valid_iff :
    (∃ v, adf limits frames data = .ok v ∧ v.state = .valid) ↔
      ∃ variant, AdfValid limits frames data variant := by
  unfold adf
  simp only []
  cases hvariant : Adf.variantOf data with
  | none =>
      constructor
      · rintro ⟨v, hv, hstate⟩
        obtain rfl := Except.ok.inj hv
        simp only [result] at hstate
        split at hstate <;> cases hstate
      · rintro ⟨variant, h⟩
        cases hvariant.symm.trans h.dosType
  | some variant =>
      simp only []
      have hfirst : ∀ {c : Bool} {finding : String},
        (if c then [] else [finding]) = [] ↔ c = true := by
        intro c finding
        cases c <;> simp
      constructor
      · rintro ⟨v, hv, hstate⟩
        refine ⟨variant, ?_⟩
        cases hwalk : walkAdf limits.maxNodes data variant frames with
        | ok =>
            rw [hwalk] at hv
            obtain rfl := Except.ok.inj hv
            have hnone := verdict_valid.1 hstate
            simp only [List.append_eq_nil_iff, hfirst, and_true] at hnone
            obtain ⟨⟨⟨hsize, hboot⟩, hroot⟩, hbitmap⟩ := hnone
            rw [Bool.and_eq_true, decide_eq_true_eq] at hboot hroot
            refine ⟨?_, hboot.2, hvariant, hroot.1, hroot.2, hbitmap, hwalk⟩
            by_contra hne
            rw [decide_eq_false hne] at hsize
            split at hsize
            · next h => cases h
            · split at hsize <;> cases hsize
        | error exc =>
            rw [hwalk] at hv
            simp only [] at hv
            split at hv
            · obtain rfl := Except.ok.inj hv
              have hnone := verdict_valid.1 hstate
              rw [List.append_eq_nil_iff] at hnone
              cases hnone.2
            · cases hv
      · rintro ⟨variant', h⟩
        obtain rfl := Option.some.inj (hvariant.symm.trans h.dosType)
        simp only [h.walk]
        refine ⟨_, rfl, ?_⟩
        have hlong : 1024 ≤ Adf.standardSize := by decide
        simp [result, h.size, hlong, h.boot, h.root, h.checksum, h.bitmap]

lemma adf_variant {v : StructuralValidation} (h : adf limits frames data = .ok v) :
    v.format = .adf ∧ v.variant = if data.length > 3 then dosTypes[u8 data 3]? else none := by
  unfold adf at h
  simp only [] at h
  cases hvariant : Adf.variantOf data with
  | none =>
      rw [hvariant] at h
      obtain rfl := Except.ok.inj h
      exact ⟨rfl, rfl⟩
  | some variant =>
      rw [hvariant] at h
      simp only [] at h
      split at h
      · obtain rfl := Except.ok.inj h
        exact ⟨rfl, rfl⟩
      · split at h
        · obtain rfl := Except.ok.inj h
          exact ⟨rfl, rfl⟩
        · cases h

end Valid

end StructuralValidator

end AVBox
