import AVBox.Analyzers.StructuralClean

/-!
# The directory tree of a FAT volume

The rows of a volume, each at its place in the tree of directories (`RowAt`), and the chains of
clusters that they start (`ClusterChain`).  Which rows of a directory count is a parameter, since
the validator examines fewer rows than a directory has (`Live`, `Examines`).

A walk of the validator without findings has gone through the chains of the rows that it examines,
and through nothing else (`reachable_iff_of_done`), and each cluster of them has the row as its
owner (`owned_of_done`).
-/

namespace AVBox

namespace Fat

open Binary Fallible

section ClusterChains

variable {data : Bytes} {vol : Volume}

/-- The clusters from a start on, up to an end mark.  There are none for a start below 2. -/
inductive ClusterChain (data : Bytes) (vol : Volume) : ℕ → List ℕ → Prop
  | none {start : ℕ} : start < 2 → ClusterChain data vol start []
  | last {cluster : ℕ} : Inside vol cluster → InTable data vol cluster →
      endMark vol.variant ≤ tableEntry data vol cluster → ClusterChain data vol cluster [cluster]
  | next {cluster following : ℕ} {rest : List ℕ} : Inside vol cluster →
      Leads data vol cluster following → Inside vol following →
      ClusterChain data vol following rest → ClusterChain data vol cluster (cluster :: rest)

/-- The clusters that following the table from a start comes to. -/
inductive OnChain (data : Bytes) (vol : Volume) (start : ℕ) : ℕ → Prop
  | start : Inside vol start → OnChain data vol start start
  | next {cluster following : ℕ} : OnChain data vol start cluster →
      Leads data vol cluster following → Inside vol following → OnChain data vol start following

/-- There is one chain from a start. -/
lemma ClusterChain.unique {start : ℕ} {chain chain' : List ℕ}
    (h : ClusterChain data vol start chain) (h' : ClusterChain data vol start chain') :
    chain = chain' := by
  induction h generalizing chain' with
  | none hlow =>
      cases h' with
      | none _ => rfl
      | last hinside _ _ => exact absurd hinside.1 (Nat.not_le.2 hlow)
      | next hinside _ _ _ => exact absurd hinside.1 (Nat.not_le.2 hlow)
  | last hinside _ hend =>
      cases h' with
      | none hlow => exact absurd hinside.1 (Nat.not_le.2 hlow)
      | last _ _ _ => rfl
      | next _ hleads _ _ =>
          obtain ⟨-, hentry, hlow⟩ := hleads
          omega
  | next hinside hleads _ _ ih =>
      obtain ⟨-, hentry, hlow⟩ := hleads
      cases h' with
      | none hlow' => exact absurd hinside.1 (Nat.not_le.2 hlow')
      | last _ _ hend => omega
      | next _ hleads' _ hrest =>
          obtain ⟨-, hentry', -⟩ := hleads'
          obtain rfl := hentry.symm.trans hentry'
          rw [ih hrest]

/-- Each cluster begins the part of the chain from there on. -/
lemma ClusterChain.of_mem {start cluster : ℕ} {chain : List ℕ}
    (h : ClusterChain data vol start chain) (hmem : cluster ∈ chain) :
    ∃ before after, chain = before ++ cluster :: after ∧
      ClusterChain data vol cluster (cluster :: after) := by
  induction h with
  | none _ => exact absurd hmem List.not_mem_nil
  | last hinside htable hend =>
      obtain rfl := List.mem_singleton.1 hmem
      exact ⟨[], [], rfl, .last hinside htable hend⟩
  | @next first following rest hinside hleads hfollowing hrest ih =>
      rcases List.mem_cons.1 hmem with rfl | hmem
      · exact ⟨[], rest, rfl, .next hinside hleads hfollowing hrest⟩
      · obtain ⟨before, after, rfl, htail⟩ := ih hmem
        exact ⟨first :: before, after, rfl, htail⟩

/-- A chain comes to no cluster twice. -/
lemma ClusterChain.nodup {start : ℕ} {chain : List ℕ} (h : ClusterChain data vol start chain) :
    chain.Nodup := by
  induction h with
  | none _ => exact List.nodup_nil
  | last _ _ _ => exact List.nodup_singleton _
  | @next first following rest hinside hleads hfollowing hrest ih =>
      refine List.nodup_cons.2 ⟨fun hmem => ?_, ih⟩
      obtain ⟨before, after, hsplit, hagain⟩ := hrest.of_mem hmem
      -- The chain from the second occurrence on is the whole chain again, and shorter.
      have hsame := (ClusterChain.next hinside hleads hfollowing hrest).unique hagain
      have hlength := congrArg List.length hsame
      rw [hsplit] at hlength
      simp only [List.length_cons, List.length_append] at hlength
      omega

/-- The clusters of a chain are those that following the table comes to. -/
lemma ClusterChain.mem_iff {start cluster : ℕ} {chain : List ℕ}
    (h : ClusterChain data vol start chain) : cluster ∈ chain ↔ OnChain data vol start cluster := by
  constructor
  · intro hmem
    have hfrom : ∀ {first : ℕ} {rest : List ℕ}, ClusterChain data vol first rest →
        OnChain data vol start first → ∀ other ∈ rest, OnChain data vol start other := by
      intro first rest hchain
      induction hchain with
      | none _ => exact fun _ _ hother => absurd hother List.not_mem_nil
      | last _ _ _ => exact fun hon => List.forall_mem_singleton.2 hon
      | next _ hleads hfollowing _ ih =>
          exact fun hon => List.forall_mem_cons.2 ⟨hon, ih (.next hon hleads hfollowing)⟩
    cases h with
    | none _ => exact absurd hmem List.not_mem_nil
    | last hinside htable hend =>
        exact hfrom (.last hinside htable hend) (.start hinside) _ hmem
    | next hinside hleads hfollowing hrest =>
        exact hfrom (.next hinside hleads hfollowing hrest) (.start hinside) _ hmem
  · intro hon
    induction hon with
    | start hinside =>
        cases h with
        | none hlow => exact absurd hinside.1 (Nat.not_le.2 hlow)
        | last _ _ _ => exact List.mem_cons_self
        | next _ _ _ _ => exact List.mem_cons_self
    | next _ hleads _ ih =>
        obtain ⟨before, after, rfl, htail⟩ := h.of_mem ih
        obtain ⟨-, hentry, hlow⟩ := hleads
        cases htail with
        | last _ _ hend => omega
        | next _ hleads' hinside hrest =>
            obtain ⟨-, hentry', -⟩ := hleads'
            obtain rfl := hentry.symm.trans hentry'
            refine List.mem_append_right _ (List.mem_cons_of_mem _ ?_)
            cases hrest with
            | none hlow' => exact absurd hinside.1 (Nat.not_le.2 hlow')
            | last _ _ _ => exact List.mem_cons_self
            | next _ _ _ _ => exact List.mem_cons_self

end ClusterChains

end Fat

namespace StructuralValidator

open Binary Fallible Walk

/-! ## What the validator reads of the table -/

section Table

variable {data : Bytes} {vol : Fat.Volume}

lemma fatValue_eq_readEntry (cluster : ℕ) : fatValue data vol cluster =
    ((Fat.readEntry data vol cluster).toOption.map Prod.fst).getD 1 := by
  unfold fatValue Fat.readEntry
  cases vol.variant with
  | fat12 =>
      simp only []
      split <;> rfl
  | fat16 =>
      simp only []
      split <;> rfl
  | fat32 =>
      simp only []
      split <;> rfl

/-- An entry that the table has is read. -/
lemma fatValue_inside {cluster : ℕ} (h : Fat.InTable data vol cluster) :
    fatValue data vol cluster = Fat.tableEntry data vol cluster := by
  rw [fatValue_eq_readEntry, Fat.readEntry_eq_ok.2 ⟨h, rfl, rfl⟩]
  rfl

/-- Behind the end of the table each entry is taken to be 1. -/
lemma fatValue_outside {cluster : ℕ} (h : ¬Fat.InTable data vol cluster) :
    fatValue data vol cluster = 1 := by
  rw [fatValue_eq_readEntry]
  rcases hread : Fat.readEntry data vol cluster with e | ⟨value, eof⟩
  · rfl
  · exact absurd (Fat.readEntry_eq_ok.1 hread).1 h

lemma inTable_of_fatValue {cluster : ℕ} (h : 2 ≤ fatValue data vol cluster) :
    Fat.InTable data vol cluster := by
  by_contra hout
  rw [fatValue_outside hout] at h
  omega

lemma eofMark_eq (variant : FatVariant) : eofMark variant = Fat.endMark variant := by
  cases variant <;> rfl

lemma two_le_eofMark (variant : FatVariant) : 2 ≤ eofMark variant := by
  cases variant <;> decide

end Table

/-! ## Rows at their places -/

section Rows

variable (data : Bytes) (vol : Fat.Volume)

/-- The content of a directory with these clusters. -/
def chainContent (chain : List ℕ) : Bytes := chain.flatMap (Fat.clusterBytes data vol)

/-- The rows below a directory of this content and path, at their places.  A place is the number of
the row in its directory, after the numbers of the directories around it. -/
inductive Below (live : ℕ → Bytes → Prop) : Bytes → PyStr → List ℕ → FatItem → Prop
  | here {content raw : Bytes} {head : PyStr} {i : ℕ} : (marked content)[i]? = some raw →
      live i raw → Below live content head [i] ⟨raw, head⟩
  | there {content raw : Bytes} {head : PyStr} {i : ℕ} {chain place : List ℕ} {item : FatItem} :
      (marked content)[i]? = some raw → live i raw → (FatItem.mk raw head).isDirectory = true →
      Fat.ClusterChain data vol (FatItem.mk raw head).start chain →
      Below live (chainContent data vol chain) (FatItem.mk raw head).owner place item →
      Below live content head (i :: place) item

/-- The content of the root directory. -/
def RootContent (content : Bytes) : Prop :=
  if vol.variant = .fat32 then
    ∃ chain, Fat.ClusterChain data vol vol.rootCluster chain ∧ content = chainContent data vol chain
  else
    content = slice data ((vol.reserved + vol.fats * vol.fatSize) * vol.bps)
      ((vol.reserved + vol.fats * vol.fatSize) * vol.bps + vol.rootSectors * vol.bps)

/-- The rows of the volume, at their places. -/
def RowAt (live : ℕ → Bytes → Prop) (place : List ℕ) (item : FatItem) : Prop :=
  ∃ content, RootContent data vol content ∧ Below data vol live content [] place item

/-- The cluster is in the chain of the root directory or of a row. -/
def Reached (live : ℕ → Bytes → Prop) (cluster : ℕ) : Prop :=
  vol.variant = .fat32 ∧ Fat.OnChain data vol vol.rootCluster cluster ∨
    ∃ place item, RowAt data vol live place item ∧ Fat.OnChain data vol item.start cluster

/-- The names of the rows for a directory itself and for the one around it. -/
def dotRows : List Bytes := [0x2E :: List.replicate 10 0x20, 0x2E :: 0x2E :: List.replicate 9 0x20]

/-- The row is that of a file or a directory: neither erased nor a part of a long name nor a
label. -/
def Live (_ : ℕ) (raw : Bytes) : Prop :=
  u8 raw 0 ≠ 0xE5 ∧ u8 raw 11 ≠ 0x0F ∧ (u8 raw 11).testBit 3 = false ∧ raw.take 11 ∉ dotRows

/-- The validator examines the row. -/
def Examines (maxNodes i : ℕ) (raw : Bytes) : Prop :=
  i < maxNodes ∧ fatSkipped raw = false ∧ (FatItem.mk raw []).name ∉ PyStr.dots

end Rows

section Places

variable {data : Bytes} {vol : Fat.Volume}

/-- The rows below directories count if they do for more. -/
lemma Below.mono {live live' : ℕ → Bytes → Prop} (hlive : ∀ i raw, live i raw → live' i raw)
    {content : Bytes} {head : PyStr} {place : List ℕ} {item : FatItem}
    (h : Below data vol live content head place item) :
    Below data vol live' content head place item := by
  induction h with
  | here hraw h => exact .here hraw (hlive _ _ h)
  | there hraw h hdir hchain _ ih => exact .there hraw (hlive _ _ h) hdir hchain ih

lemma fatSkipped_eq_false {raw : Bytes} : fatSkipped raw = false ↔
    u8 raw 0 ≠ 0xE5 ∧ u8 raw 11 ≠ 0x0F ∧ (u8 raw 11).testBit 3 = false := by
  simp only [fatSkipped, Bool.or_eq_false_iff, decide_eq_false_iff_not, and_assoc, ne_eq]

/-- The validator takes the rows for the directory itself and the one around it for such. -/
lemma live_of_examines {maxNodes i : ℕ} {raw : Bytes} (h : Examines maxNodes i raw) :
    Live i raw := by
  obtain ⟨-, hkept, hname⟩ := h
  obtain ⟨herased, hlong, hlabel⟩ := fatSkipped_eq_false.1 hkept
  refine ⟨herased, hlong, hlabel, fun hdots => hname ?_⟩
  have hboth : ∀ name ∈ dotRows, PyStr.strip (PyStr.decodeAscii name) ∈ PyStr.dots := by
    decide +kernel
  exact hboth _ hdots

lemma Reached.mono {live live' : ℕ → Bytes → Prop} (hlive : ∀ i raw, live i raw → live' i raw)
    {cluster : ℕ} (h : Reached data vol live cluster) : Reached data vol live' cluster := by
  refine h.imp_right ?_
  rintro ⟨place, item, ⟨content, hroot, hbelow⟩, hon⟩
  exact ⟨place, item, ⟨content, hroot, hbelow.mono hlive⟩, hon⟩

lemma RootContent.unique {content content' : Bytes} (h : RootContent data vol content)
    (h' : RootContent data vol content') : content = content' := by
  unfold RootContent at h h'
  split at h
  · next h32 =>
      rw [if_pos h32] at h'
      obtain ⟨chain, hchain, rfl⟩ := h
      obtain ⟨chain', hchain', rfl⟩ := h'
      rw [hchain.unique hchain']
  · next h32 =>
      rw [if_neg h32] at h'
      rw [h, h']

/-- The rows that the validator lists. -/
lemma mem_fatRows_iff {maxNodes : ℕ} {head : PyStr} {content : Bytes} {item : FatItem} :
    item ∈ fatRows maxNodes head content ↔ ∃ i raw, (marked content)[i]? = some raw ∧
      i < maxNodes ∧ fatSkipped raw = false ∧ item = ⟨raw, head⟩ := by
  rw [mem_fatRows]
  constructor
  · rintro ⟨hmem, hlive, rfl⟩
    obtain ⟨i, hi⟩ := List.mem_iff_getElem?.1 hmem
    rw [List.getElem?_take] at hi
    split at hi
    · next hlimit => exact ⟨i, item.raw, hi, hlimit, hlive, rfl⟩
    · cases hi
  · rintro ⟨i, raw, hraw, hlimit, hlive, rfl⟩
    refine ⟨List.mem_iff_getElem?.2 ⟨i, ?_⟩, hlive, rfl⟩
    rw [List.getElem?_take, if_pos hlimit, hraw]

end Places

/-! ## What a walk without findings has gone through -/

section Walked

variable {maxNodes : ℕ} {data : Bytes} {vol : Fat.Volume}

/-- The state after following a chain for an owner. -/
structure Followed (state state' : FatState) (chain : List ℕ) (owner : PyStr) : Prop where
  kept : ∀ cluster other, state.used.lookup cluster = some other →
    state'.used.lookup cluster = some other
  owned : ∀ cluster ∈ chain, state'.used.lookup cluster = some owner
  reached : ∀ cluster, cluster ∈ state'.reachable ↔ cluster ∈ state.reachable ∨ cluster ∈ chain

lemma followed_nil (state : FatState) (owner : PyStr) : Followed state state [] owner :=
  ⟨fun _ _ h => h, fun _ hmem => absurd hmem List.not_mem_nil, fun _ => by simp⟩

/-- The lookup of a cluster that is claimed by an owner. -/
lemma lookup_claim (state : FatState) (current cluster : ℕ) (owner : PyStr) :
    (state.claim current owner).used.lookup cluster =
      if cluster = current then some owner else state.used.lookup cluster := by
  show List.lookup cluster ((current, owner) :: state.used) = _
  rw [List.lookup_cons]
  by_cases h : cluster = current
  · rw [if_pos h, beq_iff_eq.2 h]
  · rw [if_neg h, beq_false_of_ne h]

lemma followed_claim {state : FatState} {current : ℕ} {owner : PyStr}
    (hunused : ¬state.usedByOther current owner = true) :
    Followed state (state.claim current owner) [current] owner where
  kept cluster other h := by
    rw [lookup_claim]
    split
    · next heq =>
        subst heq
        by_contra hne
        refine hunused ?_
        rw [FatState.usedByOther, h, Option.any_some, decide_eq_true_eq]
        exact fun heq => hne (congrArg some heq.symm)
    · exact h
  owned := List.forall_mem_singleton.2 (by rw [lookup_claim, if_pos rfl])
  reached cluster := by
    show cluster ∈ current :: state.reachable ↔ _
    rw [List.mem_cons, List.mem_singleton, or_comm]

lemma Followed.trans {state middle final : FatState} {first rest : List ℕ} {owner : PyStr}
    (h : Followed state middle first owner) (hrest : Followed middle final rest owner) :
    Followed state final (first ++ rest) owner where
  kept cluster other hlookup := hrest.kept _ _ (h.kept _ _ hlookup)
  owned := List.forall_mem_append.2
    ⟨fun cluster hmem => hrest.kept _ _ (h.owned cluster hmem), hrest.owned⟩
  reached cluster := by rw [hrest.reached, h.reached, List.mem_append, or_assoc]

/-- What the loop of `_fat_chain` goes through without a finding. -/
lemma followed_of_from {owner : PyStr} {remaining : ℕ} {seen : List ℕ} {out : Bytes}
    {current : ℕ} {state : FatState}
    (hclean : (fatChainFrom maxNodes data vol owner remaining seen out current state).2.findings =
      []) :
    ∃ chain, Fat.ClusterChain data vol current chain ∧
      (fatChainFrom maxNodes data vol owner remaining seen out current state).1 =
        out ++ chainContent data vol chain ∧
      Followed state (fatChainFrom maxNodes data vol owner remaining seen out current state).2 chain
        owner := by
  induction remaining generalizing seen out current state with
  | zero => exact absurd hclean report_ne_nil
  | succ remaining ih =>
      by_cases hlow : current < 2
      · rw [fatChainFrom, if_pos hlow]
        exact ⟨[], .none hlow, (List.append_nil _).symm, followed_nil _ _⟩
      have hstart : 2 ≤ current := Nat.not_lt.1 hlow
      have hpasses := passes_of_clean hclean hstart
      have hclaim := @followed_claim state current owner hpasses.unused
      have hmark := two_le_eofMark vol.variant
      have hinside : Fat.Inside vol current := ⟨hstart, hpasses.range⟩
      rcases clean_cases hclean hstart with heof | ⟨heof, hreference, hlimit, hrest⟩
      · have htable := inTable_of_fatValue (hmark.trans heof)
        rw [fatValue_inside htable, eofMark_eq] at heof
        rw [fatChainFrom_passes hpasses, fatValue_inside htable, eofMark_eq, if_pos heof]
        refine ⟨[current], .last hinside htable heof, ?_, hclaim⟩
        rw [chainContent, List.flatMap_singleton]
      · have htable := @inTable_of_fatValue data vol current (by omega)
        obtain ⟨chain, hchain, hcontent, hfollowed⟩ := ih hrest
        rw [fatChainFrom_passes hpasses, if_neg heof, if_neg hreference, if_neg hlimit]
        rw [eofMark_eq, fatValue_inside htable] at heof
        rw [fatValue_inside htable] at hreference hchain
        refine ⟨current :: chain, .next hinside ⟨htable, rfl, Nat.not_le.1 heof⟩
          ⟨by omega, by omega⟩ hchain, ?_, hclaim.trans hfollowed⟩
        rw [hcontent, List.append_assoc]
        rfl

/-- What `_fat_chain` goes through without a finding. -/
lemma followed_of_fatChain {start : ℕ} {owner : PyStr} {wanted : Option ℕ}
    {state state' : FatState} {content : Bytes}
    (h : fatChain maxNodes data vol start owner wanted state = (content, state'))
    (hclean : state'.findings = []) :
    ∃ chain, Fat.ClusterChain data vol start chain ∧ Followed state state' chain owner ∧
      (wanted = none → content = chainContent data vol chain) := by
  have hfrom := @clean_of_fatChain maxNodes data vol start owner wanted state
    (by rw [h]; exact hclean)
  obtain ⟨chain, hchain, hcontent, hfollowed⟩ := followed_of_from hfrom
  unfold fatChain at h
  simp only [Prod.mk.injEq] at h
  obtain ⟨hout, hstate⟩ := h
  split at hstate
  · rw [← hstate] at hclean
    exact absurd hclean report_ne_nil
  · refine ⟨chain, hchain, hstate ▸ hfollowed, ?_⟩
    rintro rfl
    rw [← hout]
    exact hcontent

/-- The walk has an owner for the clusters of the row and of the rows below it. -/
inductive Owned (maxNodes : ℕ) (data : Bytes) (vol : Fat.Volume) (final : FatState) :
    FatItem → Prop
  | dots {item : FatItem} : item.name ∈ PyStr.dots → Owned maxNodes data vol final item
  | file {item : FatItem} {chain : List ℕ} : item.isDirectory = false →
      Fat.ClusterChain data vol item.start chain →
      (∀ cluster ∈ chain, final.used.lookup cluster = some item.owner) →
      Owned maxNodes data vol final item
  | directory {item : FatItem} {chain : List ℕ} : item.isDirectory = true →
      Fat.ClusterChain data vol item.start chain →
      (∀ cluster ∈ chain, final.used.lookup cluster = some item.owner) →
      (∀ inner ∈ fatRows maxNodes item.owner (chainContent data vol chain),
        Owned maxNodes data vol final inner) →
      Owned maxNodes data vol final item

/-- The owners stay. -/
def Keeps (state state' : FatState) : Prop :=
  ∀ cluster owner, state.used.lookup cluster = some owner →
    state'.used.lookup cluster = some owner

lemma Owned.mono {state final : FatState} (hkeeps : Keeps state final) {item : FatItem}
    (h : Owned maxNodes data vol state item) : Owned maxNodes data vol final item := by
  induction h with
  | dots hdots => exact .dots hdots
  | file hfile hchain howned =>
      exact .file hfile hchain fun cluster hmem => hkeeps _ _ (howned cluster hmem)
  | directory hdir hchain howned _ ih =>
      exact .directory hdir hchain (fun cluster hmem => hkeeps _ _ (howned cluster hmem)) ih

/-- The rows that a walk without findings has come to own their clusters. -/
theorem owned_of_done {frames : ℕ} {state final : FatState} {items : List FatItem}
    (h : Done (fatLook maxNodes data vol) frames state items final) (hclean : final.findings = []) :
    Keeps state final ∧ ∀ item ∈ items, Owned maxNodes data vol final item := by
  induction h with
  | nil => exact ⟨fun _ _ h => h, fun _ hmem => absurd hmem List.not_mem_nil⟩
  | @stay frames state state' final item rest hlook hdone ih =>
      have hstay : state'.findings = [] := List.prefix_nil.1 (hclean ▸ done_findings hdone)
      obtain ⟨hkeeps, hrest⟩ := ih hclean
      cases examined_of_look hlook with
      | dots hdots => exact ⟨hkeeps, List.forall_mem_cons.2 ⟨.dots hdots, hrest⟩⟩
      | again _ _ _ => exact absurd hstay report_ne_nil
      | file _ hfile hchain =>
          obtain ⟨chain, hclusters, hfollowed, -⟩ := followed_of_fatChain hchain hstay
          refine ⟨fun cluster other h => hkeeps _ _ (hfollowed.kept _ _ h),
            List.forall_mem_cons.2 ⟨?_, hrest⟩⟩
          exact .file hfile hclusters fun cluster hmem => hkeeps _ _ (hfollowed.owned cluster hmem)
  | @enter frames state state' inside final item inner rest hlook hinner hrest ihinner ihrest =>
      have hinside : inside.findings = [] := List.prefix_nil.1 (hclean ▸ done_findings hrest)
      have henter : state'.findings = [] := List.prefix_nil.1 (hinside ▸ done_findings hinner)
      obtain ⟨hkeepsInner, howned⟩ := ihinner hinside
      obtain ⟨hkeepsRest, hrest⟩ := ihrest hclean
      cases examined_of_look hlook with
      | directory _ hdir _ hchain =>
          obtain ⟨chain, hclusters, hfollowed, hcontent⟩ := followed_of_fatChain hchain henter
          obtain rfl := hcontent rfl
          refine ⟨fun cluster other h =>
            hkeepsRest _ _ (hkeepsInner _ _ (hfollowed.kept _ _ h)),
            List.forall_mem_cons.2 ⟨?_, hrest⟩⟩
          exact (Owned.directory hdir hclusters (fun cluster hmem =>
            hkeepsInner _ _ (hfollowed.owned cluster hmem)) howned).mono hkeepsRest

/-- A row that is examined has a chain, whose clusters it owns. -/
lemma owned_of_below {final : FatState} {content : Bytes} {head : PyStr} {place : List ℕ}
    {item : FatItem} (h : Below data vol (Examines maxNodes) content head place item)
    (hitems : ∀ item ∈ fatRows maxNodes head content, Owned maxNodes data vol final item) :
    ∃ chain, Fat.ClusterChain data vol item.start chain ∧
      ∀ cluster ∈ chain, final.used.lookup cluster = some item.owner := by
  induction h with
  | @here content raw head i hraw hexamined =>
      obtain ⟨hlimit, hkept, hname⟩ := hexamined
      cases hitems _ (mem_fatRows_iff.2 ⟨i, raw, hraw, hlimit, hkept, rfl⟩) with
      | dots hdots => exact absurd hdots hname
      | file _ hchain howned => exact ⟨_, hchain, howned⟩
      | directory _ hchain howned _ => exact ⟨_, hchain, howned⟩
  | @there content raw head i chain place item hraw hexamined hdir hchain _ ih =>
      obtain ⟨hlimit, hkept, hname⟩ := hexamined
      cases hitems _ (mem_fatRows_iff.2 ⟨i, raw, hraw, hlimit, hkept, rfl⟩) with
      | dots hdots => exact absurd hdots hname
      | file hfile _ _ => exact absurd (hfile.symm.trans hdir) Bool.false_ne_true
      | directory _ hchain' _ hinner =>
          obtain rfl := hchain.unique hchain'
          exact ih hinner

/-- The cluster is in the chain of the row or of a row below it. -/
inductive Holds (maxNodes : ℕ) (data : Bytes) (vol : Fat.Volume) (cluster : ℕ) : FatItem → Prop
  | own {item : FatItem} {chain : List ℕ} : item.name ∉ PyStr.dots →
      Fat.ClusterChain data vol item.start chain → cluster ∈ chain →
      Holds maxNodes data vol cluster item
  | inner {item inner : FatItem} {chain : List ℕ} : item.name ∉ PyStr.dots →
      item.isDirectory = true → Fat.ClusterChain data vol item.start chain →
      inner ∈ fatRows maxNodes item.owner (chainContent data vol chain) →
      Holds maxNodes data vol cluster inner → Holds maxNodes data vol cluster item

/-- What the chain of a directory and the rows in it hold. -/
lemma holds_directory_iff {item : FatItem} {chain : List ℕ} {cluster : ℕ}
    (hname : item.name ∉ PyStr.dots) (hdir : item.isDirectory = true)
    (hchain : Fat.ClusterChain data vol item.start chain) :
    Holds maxNodes data vol cluster item ↔ cluster ∈ chain ∨
      ∃ inner ∈ fatRows maxNodes item.owner (chainContent data vol chain),
        Holds maxNodes data vol cluster inner := by
  constructor
  · intro h
    cases h with
    | own _ hchain' hmem =>
        obtain rfl := hchain.unique hchain'
        exact .inl hmem
    | inner _ _ hchain' hinner hholds =>
        obtain rfl := hchain.unique hchain'
        exact .inr ⟨_, hinner, hholds⟩
  · rintro (hmem | ⟨inner, hinner, hholds⟩)
    · exact .own hname hchain hmem
    · exact .inner hname hdir hchain hinner hholds

/-- A walk without findings has come to the clusters that its rows hold, and to no others. -/
theorem reachable_iff_of_done {frames : ℕ} {state final : FatState} {items : List FatItem}
    (h : Done (fatLook maxNodes data vol) frames state items final) (hclean : final.findings = [])
    (cluster : ℕ) :
    cluster ∈ final.reachable ↔ cluster ∈ state.reachable ∨
      ∃ item ∈ items, Holds maxNodes data vol cluster item := by
  induction h with
  | nil => simp
  | @stay frames state state' final item rest hlook hdone ih =>
      have hstay : state'.findings = [] := List.prefix_nil.1 (hclean ▸ done_findings hdone)
      rw [ih hclean, List.exists_mem_cons_iff]
      cases examined_of_look hlook with
      | dots hdots =>
          have hnone : ¬Holds maxNodes data vol cluster item := by
            intro h
            cases h with
            | own hname _ _ => exact hname hdots
            | inner hname _ _ _ _ => exact hname hdots
          simp only [hnone, false_or]
      | again _ _ _ => exact absurd hstay report_ne_nil
      | file hname hfile hchain =>
          obtain ⟨chain, hclusters, hfollowed, -⟩ := followed_of_fatChain hchain hstay
          have hholds : Holds maxNodes data vol cluster item ↔ cluster ∈ chain := by
            constructor
            · intro h
              cases h with
              | own _ hchain' hmem =>
                  obtain rfl := hclusters.unique hchain'
                  exact hmem
              | inner _ hdir _ _ _ => exact absurd (hfile.symm.trans hdir) Bool.false_ne_true
            · exact .own hname hclusters
          rw [hfollowed.reached, hholds, or_assoc]
  | @enter frames state state' inside final item inner rest hlook hinner hrest ihinner ihrest =>
      have hinside : inside.findings = [] := List.prefix_nil.1 (hclean ▸ done_findings hrest)
      have henter : state'.findings = [] := List.prefix_nil.1 (hinside ▸ done_findings hinner)
      rw [ihrest hclean, ihinner hinside, List.exists_mem_cons_iff]
      cases examined_of_look hlook with
      | directory hname hdir _ hchain =>
          obtain ⟨chain, hclusters, hfollowed, hcontent⟩ := followed_of_fatChain hchain henter
          obtain rfl := hcontent rfl
          rw [hfollowed.reached, holds_directory_iff hname hdir hclusters, or_assoc, or_assoc,
            or_assoc]

/-- What the rows of a directory hold are the chains of the rows below it. -/
lemma holds_iff_below {content : Bytes} {head : PyStr} {cluster : ℕ} :
    (∃ item ∈ fatRows maxNodes head content, Holds maxNodes data vol cluster item) ↔
      ∃ place item chain, Below data vol (Examines maxNodes) content head place item ∧
        Fat.ClusterChain data vol item.start chain ∧ cluster ∈ chain := by
  constructor
  · rintro ⟨item, hitem, hholds⟩
    induction hholds generalizing head content with
    | own hname hchain hmem =>
        obtain ⟨i, raw, hraw, hlimit, hkept, rfl⟩ := mem_fatRows_iff.1 hitem
        exact ⟨[i], _, _, .here hraw ⟨hlimit, hkept, hname⟩, hchain, hmem⟩
    | inner hname hdir hchain hinner _ ih =>
        obtain ⟨i, raw, hraw, hlimit, hkept, rfl⟩ := mem_fatRows_iff.1 hitem
        obtain ⟨place, item, chain', hbelow, hchain', hmem⟩ := ih hinner
        exact ⟨i :: place, item, chain', .there hraw ⟨hlimit, hkept, hname⟩ hdir hchain hbelow,
          hchain', hmem⟩
  · rintro ⟨place, item, chain, hbelow, hchain, hmem⟩
    induction hbelow with
    | @here content raw head i hraw hexamined =>
        obtain ⟨hlimit, hkept, hname⟩ := hexamined
        exact ⟨_, mem_fatRows_iff.2 ⟨i, raw, hraw, hlimit, hkept, rfl⟩, .own hname hchain hmem⟩
    | @there content raw head i chain' place item hraw hexamined hdir hchain' _ ih =>
        obtain ⟨hlimit, hkept, hname⟩ := hexamined
        obtain ⟨inner, hinner, hholds⟩ := ih hchain
        exact ⟨_, mem_fatRows_iff.2 ⟨i, raw, hraw, hlimit, hkept, rfl⟩,
          .inner hname hdir hchain' hinner hholds⟩

/-! ### From the root directory on -/

/-- The owner of the root directory. -/
def rootOwner : PyStr := PyStr.ofString "<root>"

/-- How a walk without findings begins. -/
lemma root_of_walk {frames : ℕ} {final : FatState}
    (hwalk : walkFat maxNodes data vol frames = .ok final) (hclean : final.findings = []) :
    ∃ content state chain, RootContent data vol content ∧
      (if vol.variant = .fat32 then Fat.ClusterChain data vol vol.rootCluster chain
        else chain = []) ∧
      Followed ⟨[], [], [], []⟩ state chain rootOwner ∧
      Done (fatLook maxNodes data vol) frames state (fatRows maxNodes [] content) final := by
  have hdone : Done (fatLook maxNodes data vol) frames (fatRoot maxNodes data vol).2
      (fatRows maxNodes [] (fatRoot maxNodes data vol).1) final := walk_eq_ok_iff.1 hwalk
  have hstate : (fatRoot maxNodes data vol).2.findings = [] :=
    List.prefix_nil.1 (hclean ▸ done_findings hdone)
  by_cases h32 : vol.variant = .fat32
  · rcases hroot : fatRoot maxNodes data vol with ⟨content, state⟩
    rw [hroot] at hdone hstate
    rw [fatRoot, if_pos h32] at hroot
    obtain ⟨chain, hchain, hfollowed, hcontent⟩ := followed_of_fatChain hroot hstate
    refine ⟨content, state, chain, ?_, ?_, hfollowed, hdone⟩
    · rw [RootContent, if_pos h32]
      exact ⟨chain, hchain, hcontent rfl⟩
    · rw [if_pos h32]
      exact hchain
  · rw [fatRoot, if_neg h32] at hdone
    refine ⟨_, _, [], ?_, ?_, followed_nil _ _, hdone⟩
    · rw [RootContent, if_neg h32]
    · rw [if_neg h32]

/-- The clusters that a walk without findings has come to. -/
theorem reachable_iff {frames : ℕ} {final : FatState}
    (hwalk : walkFat maxNodes data vol frames = .ok final) (hclean : final.findings = [])
    (cluster : ℕ) :
    cluster ∈ final.reachable ↔ Reached data vol (Examines maxNodes) cluster := by
  obtain ⟨content, state, chain, hroot, hchain, hfollowed, hdone⟩ := root_of_walk hwalk hclean
  have hfirst : cluster ∈ chain ↔
      vol.variant = .fat32 ∧ Fat.OnChain data vol vol.rootCluster cluster := by
    split at hchain
    · next h32 => simp only [h32, true_and, hchain.mem_iff]
    · next h32 => simp only [hchain, List.not_mem_nil, h32, false_and]
  rw [reachable_iff_of_done hdone hclean, hfollowed.reached, Reached, ← hfirst, holds_iff_below]
  simp only [List.not_mem_nil, false_or]
  refine or_congr_right ?_
  constructor
  · rintro ⟨place, item, chain, hbelow, hchain, hmem⟩
    exact ⟨place, item, ⟨content, hroot, hbelow⟩, hchain.mem_iff.1 hmem⟩
  · rintro ⟨place, item, ⟨content', hroot', hbelow⟩, hon⟩
    obtain rfl := hroot.unique hroot'
    obtain ⟨chain, hchain, -⟩ := owned_of_below hbelow (owned_of_done hdone hclean).2
    exact ⟨place, item, chain, hbelow, hchain, hchain.mem_iff.2 hon⟩

/-- The rows that are examined own their clusters. -/
theorem owned_of_rowAt {frames : ℕ} {final : FatState}
    (hwalk : walkFat maxNodes data vol frames = .ok final) (hclean : final.findings = [])
    {place : List ℕ} {item : FatItem} (h : RowAt data vol (Examines maxNodes) place item) :
    ∃ chain, Fat.ClusterChain data vol item.start chain ∧
      ∀ cluster ∈ chain, final.used.lookup cluster = some item.owner := by
  obtain ⟨content, state, chain, hroot, -, -, hdone⟩ := root_of_walk hwalk hclean
  obtain ⟨content', hroot', hbelow⟩ := h
  obtain rfl := hroot.unique hroot'
  exact owned_of_below hbelow (owned_of_done hdone hclean).2

/-- The root directory of a FAT32 volume owns its clusters. -/
theorem owned_of_root {frames : ℕ} {final : FatState}
    (hwalk : walkFat maxNodes data vol frames = .ok final) (hclean : final.findings = [])
    (h32 : vol.variant = .fat32) :
    ∃ chain, Fat.ClusterChain data vol vol.rootCluster chain ∧
      ∀ cluster ∈ chain, final.used.lookup cluster = some rootOwner := by
  obtain ⟨content, state, chain, -, hchain, hfollowed, hdone⟩ := root_of_walk hwalk hclean
  rw [if_pos h32] at hchain
  exact ⟨chain, hchain, fun cluster hmem =>
    (owned_of_done hdone hclean).1 _ _ (hfollowed.owned cluster hmem)⟩

/-- The owner of a row is never the owner of the root directory. -/
lemma owner_ne_root {live : ℕ → Bytes → Prop} {content : Bytes} {head : PyStr} {place : List ℕ}
    {item : FatItem} (h : Below data vol live content head place item)
    (hhead : head = [] ∨ head.head? = some 0x2F) : item.owner ≠ rootOwner := by
  have howner : ∀ item : FatItem, item.head = [] ∨ item.head.head? = some 0x2F →
      item.owner.head? = some 0x2F := by
    rintro ⟨raw, head⟩ (rfl | hslash)
    · rfl
    · have hnonempty : head ≠ [] := by
        rintro rfl
        cases hslash
      rw [FatItem.owner, List.append_assoc, List.head?_append_of_ne_nil _ hnonempty]
      exact hslash
  induction h with
  | @here content raw head i _ _ =>
      intro heq
      have hslash := howner ⟨raw, head⟩ hhead
      rw [heq] at hslash
      exact absurd hslash (by decide)
  | @there content raw head i chain place item _ _ _ _ _ ih =>
      exact ih (.inr (howner ⟨raw, head⟩ hhead))

end Walked

end StructuralValidator

end AVBox
