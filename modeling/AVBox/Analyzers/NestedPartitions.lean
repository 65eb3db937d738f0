import AVBox.Analyzers.Budgets
import AVBox.Analyzers.Visits
import Mathlib.Algebra.Order.BigOperators.Group.List

/-!
# Partitions inside partitions

The budget for partitions is checked against what has been charged, and a partition is charged when
everything inside it has been processed.  So the partitions around another one are not counted
when it is checked.

What can be nested in a partition is determined by the bytes of the source (`partitionBytes`).  The
budget holds of every run in which each outermost partition fits together with what is nested in
it, and no exception leaves the subtree of a partition.
-/

namespace AVBox

open Program

namespace ContainerAnalyzer

variable {ω α : Type} {env : ExtractEnv} {scans : Scans ω}

/-! ## The tables of a source -/

/-- What the start of a child adds to the bytes of partitions. -/
def ownBytes (member : Member) : ℕ :=
  if member.relation = .partitionOf then member.content.length else 0

/-- The bytes of all partitions in an object, those inside others included, in so many levels. -/
def partitionBytes (env : ExtractEnv) : ℕ → Bytes → ℕ
  | 0, _ => 0
  | depth + 1, content => ((objectMembers env content).map fun member =>
      ownBytes member + partitionBytes env depth member.content).sum

/-- A partition that lies in no other one, with the bytes of those that are nested in it. -/
structure PartitionShape where
  length : ℕ
  nested : ℕ
  deriving DecidableEq

/-- The outermost partitions of an object, in the order in which they are reached. -/
def outermost (env : ExtractEnv) : ℕ → Bytes → List PartitionShape
  | 0, _ => []
  | depth + 1, content => (objectMembers env content).flatMap fun member =>
      if member.relation = .partitionOf then
        [⟨member.content.length, partitionBytes env depth member.content⟩]
      else outermost env depth member.content

def totalBytes (shapes : List PartitionShape) : ℕ :=
  (shapes.map fun shape => shape.length + shape.nested).sum

/-- A partition with partitions inside fits together with these and with what lies before it. -/
def NestedFit (maximum : ℕ) : ℕ → List PartitionShape → Prop
  | _, [] => True
  | before, shape :: shapes =>
      (shape.nested = 0 ∨ before + shape.length + shape.nested ≤ maximum) ∧
        NestedFit maximum (before + (shape.length + shape.nested)) shapes

instance decidableNestedFit (maximum : ℕ) :
    ∀ before shapes, Decidable (NestedFit maximum before shapes)
  | _, [] => isTrue trivial
  | before, shape :: shapes =>
      have := decidableNestedFit maximum (before + (shape.length + shape.nested)) shapes
      inferInstanceAs (Decidable (_ ∧ _))

/-- The nested partition tables of a source fit into the budget for partitions. -/
def NestedTablesFit (env : ExtractEnv) (source : Bytes) : Prop :=
  NestedFit env.budget.maxTotalMaterializedPartitionBytes 0
    (outermost env env.budget.maxRecursionDepth source)

section Shapes

variable {maximum before : ℕ} {shapes shapes' : List PartitionShape}

lemma totalBytes_append :
    totalBytes (shapes ++ shapes') = totalBytes shapes + totalBytes shapes' := by
  simp [totalBytes]

lemma nestedFit_append : NestedFit maximum before (shapes ++ shapes') ↔
    NestedFit maximum before shapes ∧
      NestedFit maximum (before + totalBytes shapes) shapes' := by
  induction shapes generalizing before with
  | nil => simp [NestedFit, totalBytes]
  | cons shape shapes ih =>
      simp only [List.cons_append, NestedFit, ih, and_assoc, totalBytes, List.map_cons,
        List.sum_cons, Nat.add_assoc]

lemma NestedFit.anti {before' : ℕ} (h : NestedFit maximum before shapes)
    (hle : before' ≤ before) : NestedFit maximum before' shapes := by
  induction shapes generalizing before before' with
  | nil => trivial
  | cons shape shapes ih =>
      obtain ⟨hfirst, hrest⟩ := h
      exact ⟨hfirst.imp id fun hfit => by omega, ih hrest (by omega)⟩

/-- What holds of the shapes of a list holds of the shapes of one of its members. -/
lemma NestedFit.of_mem {members : List Member} {shapesOf : Member → List PartitionShape}
    {member : Member} (h : NestedFit maximum before (members.flatMap shapesOf))
    (hmember : member ∈ members) :
    NestedFit maximum before (shapesOf member) ∧
      totalBytes (shapesOf member) ≤ totalBytes (members.flatMap shapesOf) := by
  obtain ⟨front, back, rfl⟩ := List.append_of_mem hmember
  simp only [List.flatMap_append, List.flatMap_cons, nestedFit_append, totalBytes_append] at h ⊢
  exact ⟨h.2.1.anti (Nat.le_add_right _ _), by omega⟩

end Shapes

instance (env : ExtractEnv) (source : Bytes) : Decidable (NestedTablesFit env source) :=
  decidableNestedFit _ _ _

/-! ## What a part of an extraction materialises -/

/-- The record of the partitions has not changed. -/
structure SameRecord (s t : ExtractState ω) : Prop where
  pending : t.trace.pending = s.trace.pending
  charged : t.usage.materializedPartitionBytes = s.usage.materializedPartitionBytes
  sizes : t.trace.partitionSizes = s.trace.partitionSizes

lemma SameRecord.refl (s : ExtractState ω) : SameRecord s s := ⟨rfl, rfl, rfl⟩

lemma SameRecord.trans (s t u : ExtractState ω) (h : SameRecord s t) (h' : SameRecord t u) :
    SameRecord s u :=
  ⟨h'.pending.trans h.pending, h'.charged.trans h.charged, h'.sizes.trans h.sizes⟩

/-- The writes that have nothing to do with partitions. -/
def Write.apart : Write → Bool
  | .begun relation _ => decide (relation ≠ .partitionOf)
  | .charged _ => false
  | _ => true

lemma sameRecord_apply {write : Write} (h : Write.apart write = true) (s : ExtractState ω) :
    SameRecord s (write.apply s) := by
  cases write with
  | charged => cases h
  | event name => exact ⟨rfl, addEvent_materializedPartitionBytes _ _, rfl⟩
  | begun relation content =>
      have hrelation : relation ≠ .partitionOf := of_decide_eq_true h
      refine ⟨?_, rfl, ?_⟩ <;> simp only [Write.apply, Write.note, if_neg hrelation]
  | _ => exact ⟨rfl, rfl, rfl⟩

lemma Write.apart_of_plain {write : Write} (h : Write.plain write = true) :
    Write.apart write = true := by
  cases write <;> first | rfl | cases h

lemma sameRecord_files : FileRules fun _ x => Moves (SameRecord (ω := ω)) x := by
  refine moves_files SameRecord.refl SameRecord.trans fun write h s => sameRecord_apply ?_ s
  cases write <;> first | rfl | simp [Write.plain, Write.filing] at h

lemma Calms.sameRecord {s t : ExtractState ω} (h : Calms s t) : SameRecord s t := by
  induction h with
  | refl => exact .refl _
  | tail _ step ih =>
      refine ih.trans _ _ _ ?_
      cases step with
      | write write plain => exact sameRecord_apply (Write.apart_of_plain plain) _
      | scan scans => exact ⟨rfl, rfl, rfl⟩

lemma Before.sameRecord {source : Source} {member : Member} {s t : ExtractState ω}
    (h : Before env source member s t) : SameRecord s t := by
  rcases h with rfl | rfl
  · exact sameRecord_apply rfl s
  · exact sameRecord_files.materialize _ _ s

lemma sameRecord_recorded {parent artifact : InputArtifact} {member : Member} {depth : ℕ}
    {content : Bytes} {result : ScanJob} (s : ExtractState ω) :
    SameRecord s (recorded parent member depth artifact content result s) := ⟨rfl, rfl, rfl⟩

lemma sameRecord_decode (site : DecodeSite) (r : Except Exc α) :
    Moves SameRecord (decode site r : Extract ω α) := by
  cases r with
  | ok a => exact Moves.pure SameRecord.refl a
  | error exc =>
      exact Moves.bind SameRecord.trans (Moves.modify (sameRecord_apply rfl)) fun _ =>
        Moves.throw SameRecord.refl exc

/-- A child at the greatest depth is only looked at. -/
lemma sameRecord_deepest {content : Bytes} :
    Moves SameRecord (do
      let kind ← decode .kind (kindOf env content)
      if kind.isSome then limit "RECURSION_LIMIT_REACHED" : Extract ω Unit) :=
  Moves.bind SameRecord.trans (sameRecord_decode _ _) fun _ =>
    Moves.ite (Moves.modify (sameRecord_apply rfl)) (Moves.pure SameRecord.refl _)

/-- The bytes of the partitions that have been materialised. -/
def materializedBytes (s : ExtractState ω) : ℕ := s.trace.partitionSizes.sum

lemma SameRecord.bytes {s t : ExtractState ω} (h : SameRecord s t) :
    materializedBytes t = materializedBytes s := congrArg List.sum h.sizes

lemma bytes_begun (member : Member) (s : ExtractState ω) :
    materializedBytes ((Write.begun member.relation member.content).apply s) =
      materializedBytes s + ownBytes member := by
  unfold materializedBytes ownBytes
  simp only [Write.apply, Write.note]
  split
  · simp
  · rfl

/-- A run of `x` materialises at most `n` bytes of partitions. -/
def GrowsBy (n : ℕ) (x : Extract ω α) : Prop :=
  Moves (fun s t => materializedBytes t ≤ materializedBytes s + n) x

lemma GrowsBy.mono {n n' : ℕ} {x : Extract ω α} (h : GrowsBy n x) (hle : n ≤ n') : GrowsBy n' x :=
  fun s => (h s).trans (Nat.add_le_add_left hle _)

lemma growsBy_of_same {n : ℕ} {x : Extract ω α} (h : Moves SameRecord x) : GrowsBy n x := by
  intro s
  show materializedBytes _ ≤ _
  rw [(h s).bytes]
  exact Nat.le_add_right _ _

lemma growsBy_rules (cost : Member → ℕ) :
    @ProgramRules ω fun members x => GrowsBy (members.map cost).sum x where
  pure a := growsBy_of_same (Moves.pure SameRecord.refl a)
  throw exc := growsBy_of_same (Moves.throw SameRecord.refl exc)
  perform hplain := growsBy_of_same (Moves.modify (sameRecord_apply (Write.apart_of_plain hplain)))
  get_bind h := fun s => h s s
  bind_result {_ _ members members' x f} hx hf := fun s => by
    have hfirst := hx s
    rw [List.map_append, List.sum_append]
    cases hrun : x s with
    | ok a t =>
        have hrest := hf a ⟨s, t, hrun⟩ t
        rw [final_of_ok hrun] at hfirst
        rw [final_bind_of_ok hrun]
        omega
    | error exc t =>
        rw [final_of_error hrun] at hfirst
        rw [final_bind_of_error hrun]
        omega

/-- `_child` materialises its own bytes and what is below it. -/
lemma childOf_growsBy {recurse : Recurse ω} {source : Source} {member : Member} {n : ℕ}
    (hrecurse : ∀ artifact, GrowsBy n (recurse (source.depth + 1) artifact member.content)) :
    GrowsBy (ownBytes member + n) (childOf env scans recurse source member) := by
  intro s
  show materializedBytes _ ≤ _
  have hsplit := childOf_split env scans recurse source member s
  generalize hrun : childOf env scans recurse source member s = r at hsplit
  cases hsplit with
  | aside before ends =>
      have hbefore := before.sameRecord.bytes
      rcases ends with ⟨rfl, -⟩ | ⟨exc, rfl⟩
      · rw [final_of_ok hrun, hbefore]
        exact Nat.le_add_right _ _
      · rw [final_of_error hrun, hbefore]
        exact Nat.le_add_right _ _
  | failed before after ends =>
      obtain ⟨exc, rfl⟩ := ends
      rw [final_of_error hrun, after.sameRecord.bytes, bytes_begun, before.sameRecord.bytes]
      omega
  | @entered u v artifact result before after named ends =>
      have hbelow : GrowsBy n (below env recurse (source.depth + 1) artifact member.content) := by
        exact Moves.ite (growsBy_of_same sameRecord_deepest) (hrecurse artifact)
      have hgrows := hbelow (recorded source.parent member (source.depth + 1) artifact
        member.content result v)
      rw [final, ← ends, ← hrun, ← final, (sameRecord_recorded _).bytes, after.sameRecord.bytes,
        bytes_begun, before.sameRecord.bytes] at hgrows
      exact hgrows.trans (Nat.le_of_eq (Nat.add_assoc _ _ _))

/-- The members of an object that is not too deep. -/
lemma partitionBytes_eq {depth : ℕ} {content : Bytes} (h : depth < env.budget.maxRecursionDepth) :
    partitionBytes env (env.budget.maxRecursionDepth - depth) content =
      ((objectMembers env content).map fun member => ownBytes member +
        partitionBytes env (env.budget.maxRecursionDepth - (depth + 1)) member.content).sum := by
  rw [show env.budget.maxRecursionDepth - depth =
    env.budget.maxRecursionDepth - (depth + 1) + 1 by omega]
  rfl

lemma handlerRules_growsBy {visit : Visit ω} {cost : Member → ℕ}
    (hvisit : ∀ member, GrowsBy (cost member) (visit member)) :
    HandlerRules env visit fun members x => GrowsBy (members.map cost).sum x where
  toProgramRules := growsBy_rules cost
  visits hlisted _ := (hvisit _).mono (List.le_sum_of_mem (List.mem_map_of_mem hlisted))
  partition _ _ := (growsBy_rules cost).partitionMember _ _
    (fun member _ => (hvisit member).mono (by simp)) fun _ => Nat.le_add_right _ _

/-- By induction on the fuel: an object materialises the partitions in it at most. -/
lemma processObject_growsBy (fuel depth : ℕ) (parent : InputArtifact) (content : Bytes) :
    GrowsBy (partitionBytes env (env.budget.maxRecursionDepth - depth) content)
      (processObject env scans fuel depth parent content) := by
  induction fuel generalizing depth parent content with
  | zero =>
      exact growsBy_of_same (sameRecord_decode .stack (.error recursionError))
  | succ fuel ih =>
      rcases Nat.lt_or_ge depth env.budget.maxRecursionDepth with hdepth | hdepth
      · rw [partitionBytes_eq hdepth]
        have hrules := @handlerRules_growsBy ω env
          (childOf env scans (processObject env scans fuel) ⟨parent, depth, content⟩) _
          fun member => childOf_growsBy fun artifact => ih (depth + 1) artifact member.content
        exact hrules.objectBody
      · have hdeep := @ProgramRules.objectBody_of_deep ω _ env (growsBy_rules fun _ => 0) scans
          (processObject env scans fuel) ⟨parent, depth, content⟩ hdepth
        exact hdeep.mono (Nat.zero_le _)

/-! ## Outside of partitions -/

/-- No partition is open: everything that was materialised is charged, and the budget is kept. -/
structure Outside (maximum before : ℕ) (s : ExtractState ω) : Prop where
  pending : s.trace.pending = []
  charged : s.usage.materializedPartitionBytes = materializedBytes s
  before : materializedBytes s ≤ before
  within : materializedBytes s ≤ maximum

section Outside

variable {maximum before : ℕ} {shapes shapes' : List PartitionShape}

lemma Outside.of_same {s t : ExtractState ω} (h : Outside maximum before s)
    (hsame : SameRecord s t) : Outside maximum before t :=
  ⟨hsame.pending.trans h.pending, (hsame.charged.trans h.charged).trans hsame.bytes.symm,
    hsame.bytes.trans_le h.before, hsame.bytes.trans_le h.within⟩

lemma Outside.mono {before' : ℕ} {s : ExtractState ω} (h : Outside maximum before s)
    (hle : before ≤ before') : Outside maximum before' s :=
  ⟨h.pending, h.charged, h.before.trans hle, h.within⟩

/-- A run of `x` reaches the outermost partitions `shapes`.  It keeps the budget if these fit with
what is nested in them, and no exception leaves the subtree of one. -/
def KeepsFit (maximum : ℕ) (shapes : List PartitionShape) (x : Extract ω α) : Prop :=
  ∀ before, NestedFit maximum before shapes → Triple (Outside maximum before) x
    (fun _ => Outside maximum (before + totalBytes shapes))
    fun _ t => t.trace.pending = [] → Outside maximum (before + totalBytes shapes) t

lemma keepsFit_of_same {x : Extract ω α} (h : Moves SameRecord x) : KeepsFit maximum shapes x := by
  intro before _ s hs
  have hend := (hs.of_same (h s)).mono (Nat.le_add_right before (totalBytes shapes))
  cases hrun : x s with
  | ok a t => exact final_of_ok hrun ▸ hend
  | error exc t => exact fun _ => final_of_error hrun ▸ hend

lemma KeepsFit.bind_result {β : Type} {x : Extract ω α} {f : α → Extract ω β}
    (hx : KeepsFit maximum shapes x)
    (hf : ∀ a, (∃ s t, x s = .ok a t) → KeepsFit maximum shapes' (f a)) :
    KeepsFit maximum (shapes ++ shapes') (x >>= f) := by
  intro before hfit
  obtain ⟨hfirst, hsecond⟩ := nestedFit_append.1 hfit
  rw [totalBytes_append, ← Nat.add_assoc]
  have hends := (hx before hfirst).mono (fun _ _ h => h) fun _ _ h hpending =>
    (h hpending).mono (Nat.le_add_right _ (totalBytes shapes'))
  exact hends.bind_result fun a hrun => hf a hrun _ hsecond

lemma keepsFit_rules (shapesOf : Member → List PartitionShape) :
    @ProgramRules ω fun members x => KeepsFit maximum (members.flatMap shapesOf) x where
  pure a := keepsFit_of_same (Moves.pure SameRecord.refl a)
  throw exc := keepsFit_of_same (Moves.throw SameRecord.refl exc)
  perform hplain :=
    keepsFit_of_same (Moves.modify (sameRecord_apply (Write.apart_of_plain hplain)))
  get_bind h := fun before hfit s hs => h s before hfit s hs
  bind_result hx hf := by
    rw [List.flatMap_append]
    exact hx.bind_result hf

/-- One of several members. -/
lemma KeepsFit.of_mem {members : List Member} {shapesOf : Member → List PartitionShape}
    {member : Member} {x : Extract ω α} (h : KeepsFit maximum (shapesOf member) x)
    (hmember : member ∈ members) : KeepsFit maximum (members.flatMap shapesOf) x := by
  intro before hfit
  obtain ⟨hfits, hle⟩ := hfit.of_mem hmember
  have hmore := Nat.add_le_add_left hle before
  exact (h before hfits).mono (fun _ _ hend => hend.mono hmore)
    fun _ _ hend hpending => (hend hpending).mono hmore

/-- A child that is no partition. -/
lemma childOf_keepsFit {recurse : Recurse ω} {source : Source} {member : Member}
    (hrelation : member.relation ≠ .partitionOf)
    (hrecurse : ∀ artifact,
      KeepsFit maximum shapes (recurse (source.depth + 1) artifact member.content)) :
    KeepsFit maximum shapes (childOf env scans recurse source member) := by
  intro before hfit s hs
  have hbegun (u : ExtractState ω) :
      SameRecord u ((Write.begun member.relation member.content).apply u) :=
    @sameRecord_apply ω (.begun _ _) (decide_eq_true hrelation) u
  have hle := Nat.le_add_right before (totalBytes shapes)
  cases childOf_split env scans recurse source member s with
  | aside aside ends =>
      have hend := (hs.of_same aside.sameRecord).mono hle
      rcases ends with ⟨hrun, -⟩ | ⟨exc, hrun⟩
      · rw [hrun]
        exact hend
      · rw [hrun]
        exact fun _ => hend
  | failed aside after ends =>
      obtain ⟨exc, hrun⟩ := ends
      rw [hrun]
      exact fun _ =>
        (((hs.of_same aside.sameRecord).of_same (hbegun _)).of_same after.sameRecord).mono hle
  | entered artifact result aside after named ends =>
      have hbelow : KeepsFit maximum shapes
          (below env recurse (source.depth + 1) artifact member.content) := by
        unfold below
        split
        · exact keepsFit_of_same sameRecord_deepest
        · exact hrecurse artifact
      have hstart := ((hs.of_same aside.sameRecord).of_same (hbegun _)).of_same after.sameRecord
      rw [ends]
      exact hbelow before hfit _ (hstart.of_same (sameRecord_recorded _))

end Outside

/-! ## A partition -/

/-- The check on a partition, as far as it sees. -/
lemma partitionMember_checked {visit : Visit ω} {content : Bytes} {partition : Partition}
    (s : ExtractState ω) :
    materializedBytes (final (partitionMember env visit content partition) s) ≤
        materializedBytes s ∨
      s.usage.materializedPartitionBytes + partition.length ≤
        env.budget.maxTotalMaterializedPartitionBytes := by
  refine or_iff_not_imp_right.2 fun hover => ?_
  have hdiscovered : SameRecord s (Write.discovered.apply s) := sameRecord_apply rfl s
  have hlimit (event : String) : SameRecord s
      ((Write.event event).apply (Write.discovered.apply s)) :=
    hdiscovered.trans _ _ _ (sameRecord_apply rfl _)
  have hsame : SameRecord s (final (partitionMember env visit content partition) s) := by
    simp only [final, partitionMember, perform, modify_bind_apply]
    rcases Nat.lt_or_ge s.usage.childrenMaterialized env.budget.maxTotalChildren with h | h
    · rw [bind_of_ok (canStartChild_of_lt (s := Write.discovered.apply s) h), if_pos rfl]
      by_cases hsize : partition.length > env.budget.maxMaterializedPartitionBytes
      · rw [if_pos hsize]
        exact hlimit _
      · have hfull : (Write.discovered.apply s).usage.materializedPartitionBytes +
            partition.length > env.budget.maxTotalMaterializedPartitionBytes :=
          Nat.lt_of_not_le hover
        rw [if_neg hsize, get_bind_apply, if_pos hfull]
        exact hlimit _
    · rw [bind_of_ok (canStartChild_of_ge (s := Write.discovered.apply s) h)]
      exact hlimit _
  exact hsame.bytes.le

/-- The shapes of a member of an object at this depth. -/
def shapesBelow (env : ExtractEnv) (depth : ℕ) (member : Member) : List PartitionShape :=
  if member.relation = .partitionOf then
    [⟨member.content.length,
      partitionBytes env (env.budget.maxRecursionDepth - (depth + 1)) member.content⟩]
  else outermost env (env.budget.maxRecursionDepth - (depth + 1)) member.content

lemma outermost_eq {depth : ℕ} {content : Bytes} (h : depth < env.budget.maxRecursionDepth) :
    outermost env (env.budget.maxRecursionDepth - depth) content =
      (objectMembers env content).flatMap (shapesBelow env depth) := by
  rw [show env.budget.maxRecursionDepth - depth =
    env.budget.maxRecursionDepth - (depth + 1) + 1 by omega]
  rfl

/-- The cost of a member of an object at this depth. -/
def bytesBelow (env : ExtractEnv) (depth : ℕ) (member : Member) : ℕ :=
  ownBytes member + partitionBytes env (env.budget.maxRecursionDepth - (depth + 1)) member.content

/-- What the passes over the partitions of an object may materialise. -/
lemma bytes_partitionChild {depth : ℕ} {content : Bytes} {partition : Partition}
    {s t : ExtractState ω} {maximum before : ℕ} (hs : Outside maximum before s)
    (hfit : NestedFit maximum before
      ((partitionChild env content partition).toList.flatMap (shapesBelow env depth)))
    (hadded : materializedBytes t ≤ materializedBytes s +
      ((partitionChild env content partition).toList.map (bytesBelow env depth)).sum)
    (hchecked : materializedBytes t ≤ materializedBytes s ∨
      s.usage.materializedPartitionBytes + partition.length ≤ maximum) :
    materializedBytes t ≤ before + totalBytes
        ((partitionChild env content partition).toList.flatMap (shapesBelow env depth)) ∧
      materializedBytes t ≤ maximum := by
  obtain ⟨-, hcharged, hbefore, hwithin⟩ := hs
  cases hchild : partitionChild env content partition with
  | none =>
      rw [hchild] at hadded
      simp only [Option.toList_none, List.map_nil, List.sum_nil, List.flatMap_nil] at hadded ⊢
      exact ⟨hadded.trans (by omega), hadded.trans hwithin⟩
  | some member =>
      obtain ⟨hrelation, hlength⟩ := partitionChild_eq_some hchild
      rw [hchild] at hadded hfit
      simp only [Option.toList_some, List.map_cons, List.map_nil, List.sum_cons, List.sum_nil,
        List.flatMap_cons, List.flatMap_nil, bytesBelow, shapesBelow, ownBytes, hrelation, if_true,
        List.append_nil, NestedFit, totalBytes, hlength, Nat.add_zero] at hadded hfit ⊢
      refine ⟨hadded.trans (by omega), ?_⟩
      rcases hchecked with hsame | hfits
      · exact hsame.trans hwithin
      · -- Without nested tables the check covers the partition, else the tables fit.
        rcases hfit.1 with hnone | hnested
        · exact hadded.trans (by omega)
        · exact hadded.trans (by omega)

/-- One pass of the loop over the partitions.  A partition without tables in it is materialised only
if it fits, and for one with tables in it the budget covers what is nested. -/
lemma partitionMember_keepsFit {visit : Visit ω} {depth : ℕ} {content : Bytes}
    {partition : Partition}
    (hruns : Runs env scans (partitionMember env visit content partition))
    (hgrows : GrowsBy ((partitionChild env content partition).toList.map (bytesBelow env depth)).sum
      (partitionMember env visit content partition)) :
    KeepsFit env.budget.maxTotalMaterializedPartitionBytes
      ((partitionChild env content partition).toList.flatMap (shapesBelow env depth))
      (partitionMember env visit content partition) := by
  intro before hfit s hs
  have hledger : PartitionLedger s :=
    ⟨by rw [hs.pending, hs.charged, List.sum_nil]; rfl, by simp [hs.pending]⟩
  have hbytes := bytes_partitionChild hs hfit (hgrows s) (partitionMember_checked s)
  have houtside : ∀ t, t = final (partitionMember env visit content partition) s →
      Steps env scans s t → t.trace.pending = [] →
        Outside env.budget.maxTotalMaterializedPartitionBytes (before + totalBytes
          ((partitionChild env content partition).toList.flatMap (shapesBelow env depth))) t := by
    rintro t rfl hsteps hpending
    have hbalance := (hsteps.keeps (fun _ _ => PartitionLedger.step) hledger).balance
    rw [hpending, List.sum_nil, Nat.add_zero] at hbalance
    exact ⟨hpending, hbalance, hbytes.1, hbytes.2⟩
  have hend := hruns s
  cases hrun : partitionMember env visit content partition s with
  | ok a t =>
      rw [hrun] at hend
      exact houtside t (final_of_ok hrun).symm hend.steps (hend.pending.trans hs.pending)
  | error exc t =>
      rw [hrun] at hend
      exact houtside t (final_of_error hrun).symm hend.steps

/-! ## Whole extractions -/

/-- By induction on the fuel: outside of partitions an object keeps the budget. -/
lemma processObject_keepsFit (fuel depth : ℕ) (parent : InputArtifact) (content : Bytes) :
    KeepsFit env.budget.maxTotalMaterializedPartitionBytes
      (outermost env (env.budget.maxRecursionDepth - depth) content)
      (processObject env scans fuel depth parent content) := by
  induction fuel generalizing depth parent content with
  | zero => exact keepsFit_of_same (sameRecord_decode .stack (.error recursionError))
  | succ fuel ih =>
      rcases Nat.lt_or_ge depth env.budget.maxRecursionDepth with hdepth | hdepth
      · rw [outermost_eq hdepth]
        set visit := childOf env scans (processObject env scans fuel) ⟨parent, depth, content⟩
          with hvisit
        have hgrows := @handlerRules_growsBy ω env visit (bytesBelow env depth) fun member =>
          childOf_growsBy fun artifact => processObject_growsBy fuel (depth + 1) artifact _
        have hruns : Visits env scans visit := childOf_visits (processObject_runs fuel) hdepth
        have hrules : HandlerRules env visit fun members x =>
            KeepsFit env.budget.maxTotalMaterializedPartitionBytes
              (members.flatMap (shapesBelow env depth)) x :=
          { keepsFit_rules (shapesBelow env depth) with
            visits := fun {members member} hlisted hrelation => by
              refine KeepsFit.of_mem ?_ hlisted
              rw [shapesBelow, if_neg hrelation]
              exact childOf_keepsFit hrelation fun artifact => ih (depth + 1) artifact _
            partition := fun parsed listed => partitionMember_keepsFit
              (partitionMember_runs hruns (Partitions.parse_length_pos parsed listed))
              (hgrows.partition parsed listed) }
        exact hrules.objectBody
      · rw [Nat.sub_eq_zero_of_le hdepth]
        exact (keepsFit_rules fun _ => []).objectBody_of_deep hdepth

lemma processBody_keepsFit (source : Bytes) :
    KeepsFit env.budget.maxTotalMaterializedPartitionBytes
      (outermost env env.budget.maxRecursionDepth source) (processBody env scans source) := by
  have hconclude : Moves SameRecord (conclude : Extract ω Unit) := fun s =>
    Moves.ite (Moves.modify (sameRecord_apply rfl)) (Moves.pure SameRecord.refl _) s
  have hbody : KeepsFit env.budget.maxTotalMaterializedPartitionBytes
      (outermost env env.budget.maxRecursionDepth source ++ []) (processBody env scans source) :=
    fun before hfit s hs => KeepsFit.bind_result
      (processObject_keepsFit (recursionFuel env) 0 s.job.inputArtifact source)
      (fun _ _ => keepsFit_of_same hconclude) before hfit s hs
  rwa [List.append_nil] at hbody

/-- What the end of `process` leaves as the body has left it. -/
lemma process_body_record (source : Bytes) (s : ExtractState ω) :
    SameRecord (final (processBody env scans source) (begin source s))
        (final (process env scans source) s) ∧
      (final (process env scans source) s).trace.inside =
        (final (processBody env scans source) (begin source s)).trace.inside := by
  cases hrun : processBody env scans source (begin source s) with
  | ok a t =>
      rw [final_of_ok hrun, final_of_ok (process_of_ok hrun)]
      exact ⟨⟨rfl, rfl, rfl⟩, rfl⟩
  | error exc t =>
      have hprocess := process_of_error hrun
      rw [final_of_error hrun]
      split at hprocess
      · rw [final_of_ok hprocess]
        exact ⟨⟨rfl, rfl, rfl⟩, rfl⟩
      · rw [final_of_error hprocess]
        exact ⟨⟨rfl, rfl, rfl⟩, rfl⟩

/-- A partition is left open exactly by an exception that no clause around its call catches. -/
lemma inside_guarded_iff (source : Bytes) (s : ExtractState ω) :
    (∀ failure ∈ (final (process env scans source) s).trace.inside, Guarded failure) ↔
      (final (process env scans source) s).trace.pending = [] := by
  obtain ⟨hsame, hinside⟩ := @process_body_record ω env scans source s
  rw [hinside, hsame.pending]
  have hend := @processBody_runs ω env scans source (begin source s)
  cases hrun : processBody env scans source (begin source s) with
  | ok a t =>
      rw [hrun] at hend
      obtain ⟨caught, hcaught, hguarded⟩ := hend.inside
      rw [final_of_ok hrun, hcaught]
      exact iff_of_true (by simpa [begin] using hguarded) hend.pending
  | error exc t =>
      rw [hrun] at hend
      obtain ⟨caught, hcaught, hguarded⟩ := hend.inside
      rw [final_of_error hrun, hcaught, ← hguarded]
      simp [begin]

/-- Where the nested tables of the source fit, the budget for partitions is kept in exactly the
runs in which no exception leaves the subtree of a partition. -/
theorem partition_budget_iff (env : ExtractEnv) (scans : Scans ω) (source : Bytes)
    (s : ExtractState ω) (h : NestedTablesFit env source) :
    PartitionBudgetKept env (final (process env scans source) s) ↔
      ∀ failure ∈ (final (process env scans source) s).trace.inside, Guarded failure := by
  obtain ⟨t, hsteps, hfinal⟩ := process_steps env scans source s
  have hledger := hsteps.keeps (fun _ _ => PartitionLedger.step) (partitionLedger_begin source s)
  have hbelow := hsteps.keeps (fun _ _ => ChargedBelow.step) (chargedBelow_begin source s)
  rw [inside_guarded_iff]
  constructor
  · intro hkept
    rw [hfinal] at hkept ⊢
    exact PartitionBudgetKept.pending (t := t) hkept hledger
  · intro hpending
    obtain ⟨hsame, -⟩ := @process_body_record ω env scans source s
    have hstart : Outside env.budget.maxTotalMaterializedPartitionBytes 0 (begin source s) :=
      ⟨rfl, rfl, Nat.le_refl 0, Nat.zero_le _⟩
    have hend := @processBody_keepsFit ω env scans source 0 h (begin source s) hstart
    have hwithin : materializedBytes (final (process env scans source) s) ≤
        env.budget.maxTotalMaterializedPartitionBytes := by
      rw [hsame.bytes]
      have hopen := hsame.pending.symm.trans hpending
      cases hrun : processBody env scans source (begin source s) with
      | ok a u =>
          rw [hrun] at hend
          exact final_of_ok hrun ▸ hend.within
      | error exc u =>
          rw [final_of_error hrun] at hopen ⊢
          rw [hrun] at hend
          exact (hend hopen).within
    rw [hfinal] at hpending hwithin ⊢
    exact partitionBudgetKept_of (t := t) hledger hbelow hpending hwithin

/-! ### Two partitions, one inside the first -/

/-- A row of a boot sector. -/
def bootRow (start sectors : UInt8) : Bytes :=
  [0, 0, 0, 0, 0x83, 0, 0, 0, start, 0, 0, 0, sectors, 0, 0, 0]

/-- A disk with a disk of three sectors and a partition of one sector. -/
def siblingDisk : Bytes :=
  List.replicate 446 0 ++ bootRow 1 3 ++ bootRow 4 1 ++ List.replicate 32 0 ++ [0x55, 0xAA] ++
    (bootSector 1 2 ++ List.replicate 1024 0x41) ++ List.replicate 512 0x42

/-- A server whose budget holds the disk in the disk, and one byte less than all partitions. -/
def siblingEnv : ExtractEnv :=
  { ExtractEnv.plain with
    budget := { ExtractionBudget.default with maxTotalMaterializedPartitionBytes := 3071 } }

/-- The partition behind the nested ones is left out. -/
theorem sibling_disk_within_budget :
    let t := final (process siblingEnv .silent siblingDisk) (.fresh (containerJob siblingDisk) ())
    t.usage.materializedPartitionBytes = 2560 ∧ PartitionBudgetKept siblingEnv t :=
  ⟨by decide +kernel,
    (partition_budget_iff siblingEnv .silent siblingDisk _ (by decide +kernel)).2
      (by decide +kernel)⟩

end ContainerAnalyzer

end AVBox