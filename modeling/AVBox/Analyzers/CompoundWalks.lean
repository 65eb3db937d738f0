import AVBox.Analyzers.CompoundStreams
import Mathlib.Data.Finset.Card

/-!
# The directory walk of any compound file

`_parse_cfb` on bytes that need not be a compound file at all.  The allocation chains are cut off by
their limits, and everything but the walk of the directory raises `DocumentError` only.

The walk follows three references from each entry, and enters no entry twice, so it comes to an end
for every directory (`exists_spans`).  It takes as many nested calls as its spanning tree is high,
and assigns a path to each entry of that tree (`assignTree_of_spans`).  The root is not marked as
entered, so a reference to it leads to a second path.
-/

namespace AVBox

namespace Cfb

open Binary Fallible

/-- The exception is a `DocumentError`. -/
def IsDocument (exc : Exc) : Prop := exc.family = .documentError ∧ exc.name = "DocumentError"

/-! ## The spanning tree of the walk -/

/-- What a call of `assign_tree` goes through: it returns at once, or it enters an entry, which has
children only if it is a storage. -/
inductive Visit
  | skip
  | entry (id : ℕ) (left right : Visit)
  | storage (id : ℕ) (left children right : Visit)

/-- The number of calls that are nested. -/
def Visit.height : Visit → ℕ
  | skip => 1
  | entry _ left right => max left.height right.height + 1
  | storage _ left children right => max left.height (max children.height right.height) + 1

/-- The entries, in the order of their paths. -/
def Visit.ids : Visit → List ℕ
  | skip => []
  | entry id left right => left.ids ++ id :: right.ids
  | storage id left children right => left.ids ++ id :: (children.ids ++ right.ids)

/-- The walk from an id, with the ids it has seen before and after it. -/
inductive Spans (entries : List CfbEntry) : List ℕ → ℕ → Visit → List ℕ → Prop
  | skip {seen : List ℕ} {id : ℕ}
      (h : mark ≤ id ∨ id ∈ seen ∨ entries.find? (fun entry => entry.entryId = id) = none) :
      Spans entries seen id .skip seen
  | entry {seen seen₁ seen₂ : List ℕ} {id : ℕ} {found : CfbEntry} {left right : Visit}
      (regular : id < mark) (new : id ∉ seen)
      (find : entries.find? (fun entry => entry.entryId = id) = some found)
      (kind : found.kind ≠ 1) (first : Spans entries (id :: seen) found.leftSibling left seen₁)
      (last : Spans entries seen₁ found.rightSibling right seen₂) :
      Spans entries seen id (.entry id left right) seen₂
  | storage {seen seen₁ seen₂ seen₃ : List ℕ} {id : ℕ} {found : CfbEntry}
      {left children right : Visit} (regular : id < mark) (new : id ∉ seen)
      (find : entries.find? (fun entry => entry.entryId = id) = some found)
      (kind : found.kind = 1) (first : Spans entries (id :: seen) found.leftSibling left seen₁)
      (inner : Spans entries seen₁ found.child children seen₂)
      (last : Spans entries seen₂ found.rightSibling right seen₃) :
      Spans entries seen id (.storage id left children right) seen₃

section Spans

variable {entries : List CfbEntry} {seen seen' : List ℕ} {id : ℕ} {visit : Visit}

lemma Spans.mem_iff (h : Spans entries seen id visit seen') (other : ℕ) :
    other ∈ seen' ↔ other ∈ seen ∨ other ∈ visit.ids := by
  induction h with
  | skip => simp [Visit.ids]
  | entry _ _ _ _ _ _ ihfirst ihlast =>
      simp only [ihlast, ihfirst, Visit.ids, List.mem_cons, List.mem_append]
      tauto
  | storage _ _ _ _ _ _ _ ihfirst ihinner ihlast =>
      simp only [ihlast, ihinner, ihfirst, Visit.ids, List.mem_cons, List.mem_append]
      grind

/-- No entry is entered that has been seen. -/
lemma Spans.new (h : Spans entries seen id visit seen') {other : ℕ} (hother : other ∈ visit.ids) :
    other ∉ seen := by
  induction h with
  | skip => simp [Visit.ids] at hother
  | entry _ new _ _ first _ ihfirst ihlast =>
      rcases List.mem_append.1 hother with hmem | hmem
      · exact fun hseen => ihfirst hmem (List.mem_cons_of_mem _ hseen)
      rcases List.mem_cons.1 hmem with rfl | hmem
      · exact new
      · exact fun hseen => ihlast hmem ((first.mem_iff other).2
          (.inl (List.mem_cons_of_mem _ hseen)))
  | storage _ new _ _ first inner _ ihfirst ihinner ihlast =>
      have hfirst := first.mem_iff other
      have hinner := inner.mem_iff other
      rcases List.mem_append.1 hother with hmem | hmem
      · exact fun hseen => ihfirst hmem (List.mem_cons_of_mem _ hseen)
      rcases List.mem_cons.1 hmem with rfl | hmem
      · exact new
      rcases List.mem_append.1 hmem with hmem | hmem
      · exact fun hseen => ihinner hmem (hfirst.2 (.inl (List.mem_cons_of_mem _ hseen)))
      · exact fun hseen =>
          ihlast hmem (hinner.2 (.inl (hfirst.2 (.inl (List.mem_cons_of_mem _ hseen)))))

/-- No entry is entered twice. -/
lemma Spans.nodup (h : Spans entries seen id visit seen') : visit.ids.Nodup := by
  induction h with
  | skip => exact List.nodup_nil
  | @entry seen seen₁ _ id _ left right _ _ _ _ first last ihfirst ihlast =>
      have hlast : ∀ other ∈ right.ids, other ∉ id :: seen ∧ other ∉ left.ids := fun other hother =>
        not_or.1 (mt (first.mem_iff other).2 (last.new hother))
      refine List.nodup_append'.2 ⟨ihfirst, List.nodup_cons.2 ⟨fun hid => ?_, ihlast⟩, ?_⟩
      · exact (hlast id hid).1 List.mem_cons_self
      · refine List.disjoint_cons_right.2 ⟨fun hid => first.new hid List.mem_cons_self, ?_⟩
        exact fun other hleft hright => (hlast other hright).2 hleft
  | @storage seen seen₁ seen₂ _ id _ left children right _ _ _ _ first inner last ihfirst ihinner
      ihlast =>
      have hinner : ∀ other ∈ children.ids, other ∉ id :: seen ∧ other ∉ left.ids :=
        fun other hother => not_or.1 (mt (first.mem_iff other).2 (inner.new hother))
      have hlast : ∀ other ∈ right.ids,
          (other ∉ id :: seen ∧ other ∉ left.ids) ∧ other ∉ children.ids := by
        intro other hother
        obtain ⟨hseen, hchildren⟩ := not_or.1 (mt (inner.mem_iff other).2 (last.new hother))
        exact ⟨not_or.1 (mt (first.mem_iff other).2 hseen), hchildren⟩
      have hbehind : (children.ids ++ right.ids).Nodup :=
        List.nodup_append'.2 ⟨ihinner, ihlast, fun other hchild hright =>
          (hlast other hright).2 hchild⟩
      refine List.nodup_append'.2 ⟨ihfirst, List.nodup_cons.2 ⟨fun hid => ?_, hbehind⟩, ?_⟩
      · rcases List.mem_append.1 hid with hmem | hmem
        · exact (hinner id hmem).1 List.mem_cons_self
        · exact (hlast id hmem).1.1 List.mem_cons_self
      · refine List.disjoint_cons_right.2 ⟨fun hid => first.new hid List.mem_cons_self, ?_⟩
        intro other hleft hmem
        rcases List.mem_append.1 hmem with hmem | hmem
        · exact (hinner other hmem).2 hleft
        · exact (hlast other hmem).1.2 hleft

/-- The entries that are still to be seen. -/
def unseen (entries : List CfbEntry) (seen : List ℕ) : Finset ℕ :=
  (entries.map (·.entryId)).toFinset \ seen.toFinset

lemma unseen_mono (h : ∀ other ∈ seen, other ∈ seen') :
    (unseen entries seen').card ≤ (unseen entries seen).card := by
  refine Finset.card_le_card (Finset.sdiff_subset_sdiff (Finset.Subset.refl _)
    fun other hother => ?_)
  rw [List.mem_toFinset] at hother ⊢
  exact h other hother

lemma unseen_cons_lt {found : CfbEntry} (hnew : id ∉ seen)
    (hfind : entries.find? (fun entry => entry.entryId = id) = some found) :
    (unseen entries (id :: seen)).card < (unseen entries seen).card := by
  have hid : found.entryId = id := by simpa using List.find?_some hfind
  have hmem : id ∈ unseen entries seen := by
    unfold unseen
    rw [Finset.mem_sdiff, List.mem_toFinset, List.mem_toFinset]
    exact ⟨List.mem_map.2 ⟨found, List.mem_of_find?_eq_some hfind, hid⟩, hnew⟩
  refine Finset.card_lt_card ((Finset.ssubset_iff_of_subset ?_).2 ⟨id, hmem, by simp [unseen]⟩)
  intro other hother
  simp only [unseen, Finset.mem_sdiff, List.mem_toFinset, List.mem_cons, not_or] at hother ⊢
  exact ⟨hother.1, hother.2.2⟩

/-- The walk comes to an end from every id: each entry is entered at most once. -/
theorem exists_spans (entries : List CfbEntry) (seen : List ℕ) (id : ℕ) :
    ∃ visit seen', Spans entries seen id visit seen' := by
  induction hunseen : (unseen entries seen).card using Nat.strong_induction_on
    generalizing seen id with
  | _ count ih =>
      by_cases hskip : mark ≤ id ∨ id ∈ seen
      · exact ⟨.skip, seen, .skip (hskip.imp_right .inl)⟩
      obtain ⟨hregular, hnew⟩ := not_or.1 hskip
      cases hfind : entries.find? (fun entry => entry.entryId = id) with
      | none => exact ⟨.skip, seen, .skip (.inr (.inr hfind))⟩
      | some found =>
          have hless := hunseen ▸ unseen_cons_lt hnew hfind
          obtain ⟨left, seen₁, hfirst⟩ := ih _ hless (id :: seen) found.leftSibling rfl
          have hseen₁ : (unseen entries seen₁).card < count :=
            (unseen_mono fun other hother => (hfirst.mem_iff other).2 (.inl hother)).trans_lt hless
          by_cases hkind : found.kind = 1
          · obtain ⟨children, seen₂, hinner⟩ := ih _ hseen₁ seen₁ found.child rfl
            have hseen₂ : (unseen entries seen₂).card < count :=
              (unseen_mono fun other hother =>
                (hinner.mem_iff other).2 (.inl hother)).trans_lt hseen₁
            obtain ⟨right, seen₃, hlast⟩ := ih _ hseen₂ seen₂ found.rightSibling rfl
            exact ⟨_, _, .storage (Nat.lt_of_not_le hregular) hnew hfind hkind hfirst hinner hlast⟩
          · obtain ⟨right, seen₂, hlast⟩ := ih _ hseen₁ seen₁ found.rightSibling rfl
            exact ⟨_, _, .entry (Nat.lt_of_not_le hregular) hnew hfind hkind hfirst hlast⟩

/-- The walk succeeds exactly when its calls can be nested deeply enough, and assigns one path to
each entry that it enters. -/
lemma assignTree_of_spans (h : Spans entries seen id visit seen') (frames : ℕ) (parent : PyStr)
    {tree : Tree} (htree : tree.seen = seen) :
    (visit.height ≤ frames → ∃ tree', assignTree entries frames id parent tree = .ok tree' ∧
        tree'.seen = seen' ∧
        tree'.paths.map Prod.fst = visit.ids.reverse ++ tree.paths.map Prod.fst) ∧
      (frames < visit.height →
        assignTree entries frames id parent tree = .error stackOverflow) := by
  induction h generalizing frames parent tree with
  | @skip seen id hskip =>
      rcases frames with _ | frames
      · exact ⟨fun hle => absurd hle (Nat.not_succ_le_zero _), fun _ => rfl⟩
      refine ⟨fun _ => ⟨tree, ?_, htree, rfl⟩, fun hlt => ?_⟩
      · rw [assignTree]
        cases hfind : entries.find? fun entry => entry.entryId = id with
        | none => rfl
        | some found =>
            refine if_pos ?_
            rw [htree]
            rcases hskip with hmark | hseen | hnone
            · exact .inl hmark
            · exact .inr hseen
            · rw [hfind] at hnone
              cases hnone
      · exact absurd hlt (Nat.not_lt.2 (Nat.le_add_left 1 frames))
  | @entry seen seen₁ seen₂ id found left right regular new find kind _ _ ihfirst ihlast =>
      rcases frames with _ | frames
      · exact ⟨fun hle => absurd hle (Nat.not_succ_le_zero _), fun _ => rfl⟩
      rw [assignTree_of_find find regular (htree ▸ new)]
      simp only [kind, if_false]
      obtain ⟨hleft, hleft'⟩ := @ihfirst frames parent { tree with seen := id :: tree.seen }
        (congrArg (id :: ·) htree)
      rw [Visit.height, Nat.succ_le_succ_iff, Nat.max_le, Nat.succ_lt_succ_iff, lt_max_iff]
      by_cases hheight : left.height ≤ frames
      · obtain ⟨tree₁, hrun, hseen, hpaths⟩ := hleft hheight
        rw [hrun, ok_bind]
        obtain ⟨hright, hright'⟩ := @ihlast frames parent
          { tree₁ with paths := (id, joinPath parent found.name) :: tree₁.paths } hseen
        refine ⟨fun hle => ?_, fun hlt => hright' (by omega)⟩
        obtain ⟨tree₂, hrun₂, hseen₂, hpaths₂⟩ := hright hle.2
        refine ⟨tree₂, hrun₂, hseen₂, ?_⟩
        rw [hpaths₂]
        simp [Visit.ids, hpaths]
      · refine ⟨fun hle => absurd hle.1 hheight, fun _ => ?_⟩
        rw [hleft' (Nat.lt_of_not_le hheight)]
        rfl
  | @storage seen seen₁ seen₂ seen₃ id found left children right regular new find kind _ _ _ ihfirst
      ihinner ihlast =>
      rcases frames with _ | frames
      · exact ⟨fun hle => absurd hle (Nat.not_succ_le_zero _), fun _ => rfl⟩
      rw [assignTree_of_find find regular (htree ▸ new)]
      simp only [kind, if_true]
      obtain ⟨hleft, hleft'⟩ := @ihfirst frames parent { tree with seen := id :: tree.seen }
        (congrArg (id :: ·) htree)
      rw [Visit.height, Nat.succ_le_succ_iff, Nat.max_le, Nat.max_le, Nat.succ_lt_succ_iff,
        lt_max_iff, lt_max_iff]
      by_cases hheight : left.height ≤ frames
      · obtain ⟨tree₁, hrun, hseen, hpaths⟩ := hleft hheight
        rw [hrun, ok_bind]
        obtain ⟨hchildren, hchildren'⟩ := @ihinner frames (joinPath parent found.name)
          { tree₁ with paths := (id, joinPath parent found.name) :: tree₁.paths } hseen
        by_cases hheight' : children.height ≤ frames
        · obtain ⟨tree₂, hrun₂, hseen₂, hpaths₂⟩ := hchildren hheight'
          rw [hrun₂, ok_bind]
          obtain ⟨hright, hright'⟩ := @ihlast frames parent tree₂ hseen₂
          refine ⟨fun hle => ?_, fun hlt => hright' (by omega)⟩
          obtain ⟨tree₃, hrun₃, hseen₃, hpaths₃⟩ := hright hle.2.2
          refine ⟨tree₃, hrun₃, hseen₃, ?_⟩
          rw [hpaths₃, hpaths₂]
          simp [Visit.ids, hpaths]
        · refine ⟨fun hle => absurd hle.2.1 hheight', fun _ => ?_⟩
          rw [hchildren' (Nat.lt_of_not_le hheight')]
          rfl
      · refine ⟨fun hle => absurd hle.1 hheight, fun _ => ?_⟩
        rw [hleft' (Nat.lt_of_not_le hheight)]
        rfl

end Spans

/-! ## What else is raised -/

lemma raises_document {α : Type} (text : String) :
    Raises IsDocument (.error (.document text) : Except Exc α) := .error ⟨rfl, rfl⟩

lemma raises_parseHeader (data : Bytes) : Raises IsDocument (parseHeader data) := by
  unfold parseHeader
  refine .ite (fun _ => raises_document _) fun _ => .ite (fun _ => raises_document _) fun _ => ?_
  exact .ite (fun _ => raises_document _) fun _ => .ok _

lemma raises_sectors (data : Bytes) (header : Header) (sids : List ℕ) :
    Raises IsDocument (sectors data header sids) := by
  unfold sectors
  refine .bind (.mapM fun sid _ => ?_) fun _ _ => .ok _
  unfold sector
  exact .ite (fun _ => raises_document _) fun _ => .ok _

/-- A chain may be cyclic, shared, or lead out of its table: it is cut off by the limit. -/
lemma raises_chain (start : ℕ) (table : List ℕ) (maximum : ℕ) :
    Raises IsDocument (chain start table maximum) := by
  have hall (remaining : ℕ) : ∀ seen current,
      Raises IsDocument (chainFrom table remaining seen current) := by
    induction remaining with
    | zero =>
        intro seen current
        rw [chainFrom.eq_def]
        exact .ite (fun _ => .ok _) fun _ => raises_document _
    | succ remaining ih =>
        intro seen current
        rw [chainFrom.eq_def]
        refine .ite (fun _ => .ok _) fun _ => ?_
        cases table[current]? with
        | none => exact raises_document _
        | some next =>
            exact .ite (fun _ => raises_document _) fun _ => .bind (ih _ _) fun _ _ => .ok _
  exact hall maximum [] start

lemma raises_readEntries (directory : Bytes) (maximum : ℕ) :
    Raises IsDocument (readEntries directory maximum) := by
  unfold readEntries
  exact .ite (fun _ => raises_document _) fun _ => .ok _

lemma raises_readMinifat (data : Bytes) (header : Header) (fat : List ℕ) :
    Raises IsDocument (readMinifat data header fat) := by
  unfold readMinifat
  refine .ite (fun _ => .bind (raises_chain _ _ _) fun sids _ => ?_) fun _ => .ok _
  exact .bind (raises_sectors _ _ _) fun _ _ => .ok _

lemma raises_readMinistream (data : Bytes) (header : Header) (fat : List ℕ) (maximum : ℕ)
    (root : Option CfbEntry) : Raises IsDocument (readMinistream data header fat maximum root) := by
  unfold readMinistream
  cases root with
  | none => exact .ok _
  | some root =>
      refine .ite (fun _ => .bind (raises_chain _ _ _) fun sids _ => ?_) fun _ => .ok _
      exact .bind (raises_sectors _ _ _) fun _ _ => .ok _

lemma raises_readStream (limits : DocumentLimits) (storage : Storage) (entry : CfbEntry) :
    Raises IsDocument (readStream limits storage entry) := by
  unfold readStream
  refine .ite (fun _ => .ok _) fun _ => .ite (fun _ => .ok _) fun _ =>
    .ite (fun _ => ?_) fun _ => ?_
  · exact .bind (raises_chain _ _ _) fun _ _ => .ok _
  · refine .ite (fun _ => .bind (raises_chain _ _ _) fun sids _ => ?_) fun _ => .ok _
    exact .bind (raises_sectors _ _ _) fun _ _ => .ok _

/-! ## The whole file -/

section Whole

variable (limits : DocumentLimits) (frames : ℕ) (data : Bytes)

/-- The entries of the directory of a file. -/
def directoryEntries : Except Exc (List CfbEntry) := do
  let header ← parseHeader data
  let fat := table (← sectors data header header.fatSectors)
  let directory ← sectors data header (← chain header.firstDir fat limits.maxDocumentComponents)
  readEntries directory limits.maxDocumentComponents

/-- The walk of the directory, from what the root refers to. -/
def walkFrom (entries : List CfbEntry) (root : CfbEntry) : Except Exc Tree :=
  assignTree entries frames root.child [] ⟨[], [(root.entryId, root.name)]⟩

/-- The parser returns, or raises `DocumentError`. -/
def ParsesOrRefuses : Prop :=
  (∃ entries, parse limits frames data = .ok entries) ∨
    ∃ exc, parse limits frames data = .error exc ∧ IsDocument exc

/-- No entry is assigned a path twice. -/
def PathsOnce : Prop :=
  ∀ entries root tree, directoryEntries limits data = .ok entries → rootOf entries = some root →
    walkFrom frames entries root = .ok tree → (tree.paths.map Prod.fst).Nodup

/-- The spanning tree of the directory, if there is one with a root, is not higher than the number
of calls that can be nested, and the root is not in it. -/
def WalkFits : Prop :=
  ∀ entries root, directoryEntries limits data = .ok entries → rootOf entries = some root →
    ∃ visit seen, Spans entries [] root.child visit seen ∧ visit.height ≤ frames ∧
      root.entryId ∉ visit.ids

variable {limits frames data}

lemma walkFrom_of_spans {entries : List CfbEntry} {root : CfbEntry} {visit : Visit} {seen : List ℕ}
    (h : Spans entries [] root.child visit seen) :
    (visit.height ≤ frames → ∃ tree, walkFrom frames entries root = .ok tree ∧
        tree.paths.map Prod.fst = visit.ids.reverse ++ [root.entryId]) ∧
      (frames < visit.height → walkFrom frames entries root = .error stackOverflow) := by
  obtain ⟨hok, herror⟩ := @assignTree_of_spans _ _ _ _ _ h frames []
    ⟨[], [(root.entryId, root.name)]⟩ rfl
  refine ⟨fun hheight => ?_, herror⟩
  obtain ⟨tree, htree, -, hpaths⟩ := hok hheight
  exact ⟨tree, htree, hpaths⟩

/-- The walk is the only part that may raise anything else. -/
lemma raises_assignPaths_iff {entries : List CfbEntry} :
    Raises IsDocument (assignPaths frames entries) ↔
      ∀ root, rootOf entries = some root → ∃ tree, walkFrom frames entries root = .ok tree := by
  unfold assignPaths
  cases hroot : rootOf entries with
  | none => exact iff_of_true (.ok _) fun root h => by cases h
  | some root =>
      change Raises IsDocument (walkFrom frames entries root >>= _) ↔ _
      obtain ⟨visit, seen, hspans⟩ := exists_spans entries [] root.child
      obtain ⟨hok, herror⟩ := @walkFrom_of_spans frames entries root visit seen hspans
      by_cases hheight : visit.height ≤ frames
      · obtain ⟨tree, htree, -⟩ := hok hheight
        rw [htree]
        refine iff_of_true (.ok _) ?_
        rintro _ ⟨⟩
        exact ⟨tree, htree⟩
      · have hdeep := herror (Nat.lt_of_not_le hheight)
        rw [hdeep]
        refine iff_of_false (fun h => ?_) fun h => ?_
        · cases (h _ rfl).1
        · obtain ⟨tree, htree⟩ := h root rfl
          cases hdeep.symm.trans htree

lemma raises_parse_iff :
    Raises IsDocument (parse limits frames data) ↔
      ∀ entries, directoryEntries limits data = .ok entries →
        Raises IsDocument (assignPaths frames entries) := by
  constructor
  · intro h entries hentries
    obtain ⟨header, hheader, hrest⟩ := bind_eq_ok.1 hentries
    obtain ⟨fat, hfat, hrest⟩ := bind_eq_ok.1 hrest
    obtain ⟨sids, hsids, hrest⟩ := bind_eq_ok.1 hrest
    obtain ⟨directory, hdirectory, hread⟩ := bind_eq_ok.1 hrest
    rw [parse, hheader, ok_bind, hfat, ok_bind] at h
    dsimp only at h
    rw [hsids, ok_bind, hdirectory, ok_bind, hread, ok_bind] at h
    by_contra hpaths
    exact not_raises_bind hpaths h
  · intro h
    unfold parse
    refine .bind (raises_parseHeader _) fun header hheader => ?_
    refine .bind (raises_sectors _ _ _) fun fat hfat => ?_
    refine .bind (raises_chain _ _ _) fun sids hsids => ?_
    refine .bind (raises_sectors _ _ _) fun directory hdirectory => ?_
    refine .bind (raises_readEntries _ _) fun entries hread => ?_
    refine .bind (h entries ?_) fun _ _ => ?_
    · exact bind_eq_ok.2 ⟨header, hheader, bind_eq_ok.2 ⟨fat, hfat, bind_eq_ok.2
        ⟨sids, hsids, bind_eq_ok.2 ⟨directory, hdirectory, hread⟩⟩⟩⟩
    · refine .bind (raises_readMinifat _ _ _) fun _ _ => ?_
      refine .bind (raises_readMinistream _ _ _ _ _) fun _ _ => .mapM fun entry _ => ?_
      exact .bind (raises_readStream _ _ _) fun _ _ => .ok _

lemma parsesOrRefuses_iff :
    ParsesOrRefuses limits frames data ↔ Raises IsDocument (parse limits frames data) := by
  unfold ParsesOrRefuses
  constructor
  · rintro (⟨entries, h⟩ | ⟨exc, h, hexc⟩)
    · rw [h]
      exact .ok entries
    · rw [h]
      exact .error hexc
  · intro h
    cases hparse : parse limits frames data with
    | ok entries => exact .inl ⟨entries, rfl⟩
    | error exc => exact .inr ⟨exc, rfl, h exc hparse⟩

lemma parsesOrRefuses_iff_walk :
    ParsesOrRefuses limits frames data ↔
      ∀ entries root, directoryEntries limits data = .ok entries → rootOf entries = some root →
        ∃ tree, walkFrom frames entries root = .ok tree := by
  rw [parsesOrRefuses_iff, raises_parse_iff]
  simp only [raises_assignPaths_iff]
  exact ⟨fun h entries root hentries => h entries hentries root,
    fun h entries hentries root => h entries root hentries⟩

/-- With enough stack the parser returns or raises `DocumentError`, whatever the references are. -/
lemma exists_enough (limits : DocumentLimits) (data : Bytes) :
    ∃ enough, ∀ more, ParsesOrRefuses limits (enough + more) data := by
  by_cases hwalk : ∃ entries root, directoryEntries limits data = .ok entries ∧
      rootOf entries = some root
  · obtain ⟨entries, root, hentries, hroot⟩ := hwalk
    obtain ⟨visit, seen, hspans⟩ := exists_spans entries [] root.child
    refine ⟨visit.height, fun more => parsesOrRefuses_iff_walk.2 fun entries' root' h h' => ?_⟩
    obtain rfl := Except.ok.inj (hentries.symm.trans h)
    obtain rfl := Option.some.inj (hroot.symm.trans h')
    obtain ⟨tree, htree, -⟩ := (walkFrom_of_spans hspans).1 (Nat.le_add_right visit.height more)
    exact ⟨tree, htree⟩
  · refine ⟨0, fun more => parsesOrRefuses_iff_walk.2 fun entries root hentries hroot => ?_⟩
    exact absurd ⟨entries, root, hentries, hroot⟩ hwalk

/-- The walk of the directory of any file comes to an end; the parser returns or raises
`DocumentError`, and assigns each entry at most one path, exactly when the walk is not too deep for
the stack and does not lead back to the root. -/
theorem parsesOrRefuses_pathsOnce_iff (limits : DocumentLimits) (frames : ℕ) (data : Bytes) :
    (∃ enough, ∀ more, ParsesOrRefuses limits (enough + more) data) ∧
      ((ParsesOrRefuses limits frames data ∧ PathsOnce limits frames data) ↔
        WalkFits limits frames data) := by
  refine ⟨exists_enough limits data, ?_⟩
  rw [parsesOrRefuses_iff_walk]
  constructor
  · rintro ⟨hwalk, honce⟩ entries root hentries hroot
    obtain ⟨visit, seen, hspans⟩ := exists_spans entries [] root.child
    obtain ⟨hok, herror⟩ := @walkFrom_of_spans frames entries root visit seen hspans
    by_cases hheight : visit.height ≤ frames
    · obtain ⟨tree, htree, hpaths⟩ := hok hheight
      have hnodup := honce entries root tree hentries hroot htree
      rw [hpaths, List.nodup_append_comm, List.singleton_append, List.nodup_cons,
        List.mem_reverse] at hnodup
      exact ⟨visit, seen, hspans, hheight, hnodup.1⟩
    · obtain ⟨tree, htree⟩ := hwalk entries root hentries hroot
      cases (herror (Nat.lt_of_not_le hheight)).symm.trans htree
  · intro hfits
    constructor
    · intro entries root hentries hroot
      obtain ⟨visit, seen, hspans, hheight, -⟩ := hfits entries root hentries hroot
      obtain ⟨tree, htree, -⟩ := (walkFrom_of_spans hspans).1 hheight
      exact ⟨tree, htree⟩
    · intro entries root tree hentries hroot htree
      obtain ⟨visit, seen, hspans, hheight, hapart⟩ := hfits entries root hentries hroot
      obtain ⟨tree', htree', hpaths⟩ := (walkFrom_of_spans hspans).1 hheight
      obtain rfl := Except.ok.inj (htree'.symm.trans htree)
      rw [hpaths, List.nodup_append_comm, List.singleton_append, List.nodup_cons, List.mem_reverse]
      exact ⟨hapart, List.nodup_reverse.2 hspans.nodup⟩

end Whole

/-! ### A root that refers to itself -/

/-- A file whose directory holds a root only, which is its own child. -/
def selfRooted : Bytes :=
  padded 512 0 (sampleHeader 3) ++
    padded 512 0xFF (word32 0xFFFFFFFD ++ word32 endOfChain ++ word32 endOfChain) ++
    padded 512 0 (sampleSlot sampleRootName 5 0 endOfChain 0) ++ padded 512 0xFF (word32 endOfChain)

/-- The root entry of the file. -/
def selfRoot : CfbEntry where
  entryId := 0
  name := sampleRootName
  kind := 5
  start := endOfChain
  size := 0
  leftSibling := 0xFFFFFFFF
  rightSibling := 0xFFFFFFFF
  child := 0
  data := []
  path := []

lemma directoryEntries_selfRooted : directoryEntries .default selfRooted = .ok [selfRoot] := by
  decide +kernel

/-- The root is assigned its path twice. -/
theorem self_rooted_assigned_twice :
    ¬∀ limits frames data, (∃ enough, ∀ more, ParsesOrRefuses limits (enough + more) data) ∧
      ParsesOrRefuses limits frames data ∧ PathsOnce limits frames data := by
  intro h
  obtain ⟨-, -, honce⟩ := h .default 900 selfRooted
  have hwalk : walkFrom 900 [selfRoot] selfRoot =
      .ok ⟨[0], [(0, sampleRootName), (0, sampleRootName)]⟩ := by decide +kernel
  have hnodup := honce [selfRoot] selfRoot _ directoryEntries_selfRooted rfl hwalk
  exact absurd hnodup (by decide)

end Cfb

end AVBox
