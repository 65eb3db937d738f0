import AVBox.Analyzers.Runs

/-!
# Extraction budgets

The counters of `ExtractionUsage` against the budget of the server, at every point of a run of
`ContainerAnalyzer.process`.

* The budgets for children and bytes are global to the recursion: every write keeps
  `WithinBudget`, so every point of every run has it.
* The budget for partitions is checked when a partition is started and charged when its subtree
  has returned.  The bytes charged and the bytes of the partitions still open add up to what was
  materialised (`PartitionLedger`).
-/

namespace AVBox

open Program

namespace ContainerAnalyzer

variable {ω : Type} {env : ExtractEnv} {scans : Scans ω}

/-! ## Children and bytes -/

/-- The counters of one point agree with the files, and both are within the budget.  `base` is
what the job had derived before the extraction. -/
structure WithinBudget (budget : ExtractionBudget) (base : List DerivedObject) (point : Point) :
    Prop where
  children : point.usage.childrenMaterialized ≤ budget.maxTotalChildren
  bytes : point.usage.totalExtractedBytes ≤ budget.maxTotalExtractedBytes
  exact_bytes : point.usage.totalExtractedBytes = (point.files.map List.length).sum
  single : ∀ file ∈ point.files, file.length ≤ budget.maxSingleChildBytes
  depth : ∀ object ∈ point.derivedObjects, object ∈ base ∨
    1 ≤ object.depth ∧ object.depth ≤ budget.maxRecursionDepth

/-- A write that the handlers have checked keeps the budget. -/
lemma WithinBudget.change {base : List DerivedObject} {s : ExtractState ω}
    (h : WithinBudget env.budget base s.point) {write : Write} (hallowed : Allowed env s write) :
    WithinBudget env.budget base (write.change s).point := by
  cases write with
  | event name =>
      exact ⟨by simpa [ExtractState.point, Write.change] using h.children,
        by simpa [ExtractState.point, Write.change] using h.bytes,
        by simpa [ExtractState.point, Write.change] using h.exact_bytes, h.single, h.depth⟩
  | stored content =>
      obtain ⟨hsingle, htotal, -⟩ := hallowed
      refine ⟨h.children, ?_, ?_, ?_, h.depth⟩
      · by_cases hnil : content = []
        · simpa [ExtractState.point, Write.change, hnil] using h.bytes
        · exact htotal hnil
      · have hexact := h.exact_bytes
        simp only [ExtractState.point, Write.change, List.map_append, List.sum_append,
          List.map_cons, List.map_nil, List.sum_cons, List.sum_nil] at hexact ⊢
        omega
      · intro file hmem
        rcases List.mem_append.1 hmem with hmem | hmem
        · exact h.single file hmem
        · obtain rfl := List.mem_singleton.1 hmem
          exact hsingle
  | begun relation content =>
      exact ⟨hallowed.1, h.bytes, h.exact_bytes, h.single, h.depth⟩
  | derived object content =>
      refine ⟨h.children, h.bytes, h.exact_bytes, h.single, fun other hmem => ?_⟩
      rcases List.mem_append.1 hmem with hmem | hmem
      · exact h.depth other hmem
      · obtain rfl := List.mem_singleton.1 hmem
        exact .inr hallowed
  | _ => exact ⟨h.children, h.bytes, h.exact_bytes, h.single, h.depth⟩

lemma apply_point (s : ExtractState ω) (write : Write) :
    (write.apply s).point = (write.change s).point := rfl

/-- Every point so far is within the budget, and so is the state. -/
def KeptBudget (env : ExtractEnv) (base : List DerivedObject) (s : ExtractState ω) : Prop :=
  (∀ point ∈ s.trace.points, WithinBudget env.budget base point) ∧
    WithinBudget env.budget base s.point

lemma KeptBudget.step {base : List DerivedObject} {s t : ExtractState ω}
    (h : KeptBudget env base s) (hstep : Step env scans s t) : KeptBudget env base t := by
  cases hstep with
  | scan artifact label content => exact h
  | write write hallowed =>
      have hchange := h.2.change hallowed
      refine ⟨fun point hmem => ?_, hchange⟩
      rw [apply_points] at hmem
      rcases List.mem_append.1 hmem with hmem | hmem
      · exact h.1 point hmem
      · obtain rfl := List.mem_singleton.1 hmem
        exact hchange

lemma keptBudget_begin (source : Bytes) (s : ExtractState ω) :
    KeptBudget env s.job.derivedObjects (begin source s) := by
  have hpoint : WithinBudget env.budget s.job.derivedObjects (begin source s).point :=
    ⟨Nat.zero_le _, Nat.zero_le _, rfl, by simp [begin, ExtractState.point],
      fun _ hmem => .inl hmem⟩
  refine ⟨fun point hmem => ?_, hpoint⟩
  obtain rfl := List.mem_singleton.1 hmem
  exact hpoint

/-! ## The depth of the recursion -/

/-- `_child` of an object only calls the recursion one level further down. -/
lemma childOf_congr {recurse recurse' : Recurse ω} {source : Source}
    (h : recurse (source.depth + 1) = recurse' (source.depth + 1)) :
    childOf env scans recurse source = childOf env scans recurse' source := by
  funext member
  simp only [childOf, child, enterChild, recordChild, h]

/-- From one call for each depth on, more fuel makes no difference. -/
lemma processObject_succ (fuel depth : ℕ) (h : env.budget.maxRecursionDepth ≤ depth + fuel) :
    processObject env scans (fuel + 2) depth = processObject env scans (fuel + 1) depth := by
  induction fuel generalizing depth with
  | zero =>
      funext parent content
      have hlimit : depth ≥ env.budget.maxRecursionDepth := h
      simp only [processObject, objectBody, hlimit, if_true]
  | succ fuel ih =>
      funext parent content
      have hnext := ih (depth + 1) (by omega)
      have hchild := @childOf_congr ω env scans _ _ ⟨parent, depth, content⟩ hnext
      change objectBody env scans (processObject env scans (fuel + 2)) ⟨parent, depth, content⟩ =
        objectBody env scans (processObject env scans (fuel + 1)) ⟨parent, depth, content⟩
      unfold objectBody
      rw [hchild]

lemma processObject_fuel {fuel : ℕ} (h : recursionFuel env ≤ fuel) :
    processObject env scans fuel 0 = processObject env scans (recursionFuel env) 0 := by
  induction fuel, h using Nat.le_induction with
  | base => rfl
  | succ fuel hle ih =>
      obtain ⟨fuel, rfl⟩ : ∃ n, fuel = n + 1 := ⟨fuel - 1, by unfold recursionFuel at hle; omega⟩
      rw [← ih]
      exact processObject_succ fuel 0 (by unfold recursionFuel at hle; omega)

/-- The budgets for children and bytes hold at every point of every run, and the recursion ends:
a bound of one nested call for each depth is as good as any larger one. -/
theorem process_within_budget (env : ExtractEnv) (scans : Scans ω) (source : Bytes)
    (s : ExtractState ω) :
    (∀ point ∈ (final (process env scans source) s).trace.points,
        WithinBudget env.budget s.job.derivedObjects point) ∧
      ∀ fuel, recursionFuel env ≤ fuel →
        processObject env scans fuel 0 = processObject env scans (recursionFuel env) 0 := by
  refine ⟨?_, fun fuel hfuel => processObject_fuel hfuel⟩
  obtain ⟨t, hsteps, hfinal⟩ := process_steps env scans source s
  rw [hfinal]
  exact (hsteps.keeps (fun _ _ => KeptBudget.step) (keptBudget_begin source s)).1

/-! ## Partitions -/

/-- The budget for partitions as it is promised: it is never exceeded, and in the end it has been
charged with every partition that was materialised. -/
def PartitionBudgetKept (env : ExtractEnv) (t : ExtractState ω) : Prop :=
  (∀ point ∈ t.trace.points, point.usage.materializedPartitionBytes ≤
    env.budget.maxTotalMaterializedPartitionBytes) ∧
  t.usage.materializedPartitionBytes = t.trace.partitionSizes.sum

/-- The charged and the open partitions together are what was materialised. -/
structure PartitionLedger (s : ExtractState ω) : Prop where
  balance : s.usage.materializedPartitionBytes + s.trace.pending.sum = s.trace.partitionSizes.sum
  positive : ∀ length ∈ s.trace.pending, 0 < length

/-- The start of a partition adds the same amount to both sides of the balance. -/
lemma PartitionLedger.begun {s : ExtractState ω} (h : PartitionLedger s) {content : Bytes}
    (hcontent : content ≠ []) :
    PartitionLedger ((Write.begun .partitionOf content).apply s) := by
  have hbalance := h.balance
  refine ⟨?_, fun length hmem => ?_⟩
  · simp only [Write.apply, Write.change, Write.note, if_true, List.sum_cons, List.sum_append,
      List.sum_nil, Nat.add_zero]
    omega
  · rcases List.mem_cons.1 hmem with rfl | hmem
    · exact List.length_pos_iff.2 hcontent
    · exact h.positive length hmem

/-- The charge moves a partition from one term of the balance to the other. -/
lemma PartitionLedger.charged {s : ExtractState ω} (h : PartitionLedger s) {length : ℕ}
    (hpending : ∃ rest, s.trace.pending = length :: rest) :
    PartitionLedger ((Write.charged length).apply s) := by
  obtain ⟨rest, hpending⟩ := hpending
  have hbalance := h.balance
  have hpositive := h.positive
  rw [hpending] at hbalance hpositive
  refine ⟨?_, ?_⟩ <;>
    simp only [Write.apply, Write.change, Write.note, hpending, List.tail_cons, List.sum_cons]
      at hbalance ⊢
  · omega
  · exact fun other hmem => hpositive other (List.mem_cons_of_mem _ hmem)

lemma PartitionLedger.step {s t : ExtractState ω} (h : PartitionLedger s)
    (hstep : Step env scans s t) : PartitionLedger t := by
  cases hstep with
  | scan artifact label content => exact ⟨h.balance, h.positive⟩
  | write write hallowed =>
      cases write with
      | begun relation content =>
          by_cases hrelation : relation = .partitionOf
          · subst hrelation
            exact h.begun (hallowed.2 rfl)
          · have hnote : (Write.begun relation content).note s.trace = s.trace := by
              simp [Write.note, hrelation]
            refine ⟨?_, ?_⟩ <;> simp only [Write.apply, hnote]
            exacts [h.balance, h.positive]
      | charged length => exact h.charged hallowed
      | event name =>
          refine ⟨?_, h.positive⟩
          simpa [Write.apply, Write.change, Write.note] using h.balance
      | _ => exact ⟨h.balance, h.positive⟩

lemma partitionLedger_begin (source : Bytes) (s : ExtractState ω) :
    PartitionLedger (begin source s) := ⟨rfl, by simp [begin]⟩

/-- No point has been charged with more than the state. -/
structure ChargedBelow (s : ExtractState ω) : Prop where
  points : ∀ point ∈ s.trace.points,
    point.usage.materializedPartitionBytes ≤ s.usage.materializedPartitionBytes
  last : s.point ∈ s.trace.points

lemma ChargedBelow.step {s t : ExtractState ω} (h : ChargedBelow s)
    (hstep : Step env scans s t) : ChargedBelow t := by
  cases hstep with
  | scan artifact label content => exact ⟨h.points, h.last⟩
  | write write hallowed =>
      have hgrows : s.usage.materializedPartitionBytes ≤
          (write.change s).usage.materializedPartitionBytes := by
        cases write <;> simp [Write.change]
      refine ⟨fun point hmem => ?_, by rw [apply_points, apply_point]; simp⟩
      rw [apply_points] at hmem
      rcases List.mem_append.1 hmem with hmem | hmem
      · exact (h.points point hmem).trans hgrows
      · obtain rfl := List.mem_singleton.1 hmem
        exact Nat.le_refl _

lemma chargedBelow_begin (source : Bytes) (s : ExtractState ω) :
    ChargedBelow (begin source s) :=
  ⟨fun point hmem => by obtain rfl := List.mem_singleton.1 hmem; exact Nat.le_refl _,
    List.mem_singleton_self _⟩

/-- The budget for partitions is kept if no partition is left open and what was materialised is
within it. -/
lemma partitionBudgetKept_of {t : ExtractState ω} (hledger : PartitionLedger t)
    (hbelow : ChargedBelow t) (hpending : t.trace.pending = [])
    (hwithin : t.trace.partitionSizes.sum ≤ env.budget.maxTotalMaterializedPartitionBytes) :
    PartitionBudgetKept env t := by
  have hbalance := hledger.balance
  rw [hpending, List.sum_nil] at hbalance
  refine ⟨fun point hmem => ?_, by omega⟩
  have hpoint := hbelow.points point hmem
  omega

/-- A partition that is left open is never charged. -/
lemma PartitionBudgetKept.pending {t : ExtractState ω} (h : PartitionBudgetKept env t)
    (hledger : PartitionLedger t) : t.trace.pending = [] := by
  have hbalance := hledger.balance
  have hend := h.2
  cases hpending : t.trace.pending with
  | nil => rfl
  | cons length rest =>
      have hpositive := hledger.positive length (by simp [hpending])
      rw [hpending, List.sum_cons] at hbalance
      omega

/-! ### A disk inside a partition -/

/-- A boot sector with one partition, from sector `start` on. -/
def bootSector (start sectors : UInt8) : Bytes :=
  List.replicate 446 0 ++ [0, 0, 0, 0, 0x83, 0, 0, 0, start, 0, 0, 0, sectors, 0, 0, 0] ++
    List.replicate 48 0 ++ [0x55, 0xAA]

/-- A disk whose only partition is a disk with one partition. -/
def nestedDisk : Bytes := bootSector 1 3 ++ (bootSector 1 2 ++ List.replicate 1024 0x41)

/-- A server that allows 2048 bytes of partitions. -/
def nestedEnv : ExtractEnv :=
  { ExtractEnv.plain with
    budget := { ExtractionBudget.default with maxTotalMaterializedPartitionBytes := 2048 } }

instance (env : ExtractEnv) (t : ExtractState ω) : Decidable (PartitionBudgetKept env t) :=
  inferInstanceAs (Decidable (_ ∧ _))

/-- The outer partition has not been charged when the inner one is checked: 1536 and 1024 bytes
are materialised under a budget of 2048. -/
theorem nested_disk_exceeds_budget :
    ¬PartitionBudgetKept nestedEnv
      (final (process nestedEnv .silent nestedDisk) (.fresh (containerJob nestedDisk) ())) := by
  decide +kernel

end ContainerAnalyzer

end AVBox
