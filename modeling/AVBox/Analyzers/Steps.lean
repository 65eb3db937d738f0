import AVBox.Analyzers.Containers
import Mathlib.Logic.Relation

/-!
# What one step of an extraction does

`Step` is the abstract view of an extraction: a write that the budget allows, or the scan of one
child.  Everything that holds of every run is proved of `Step` first, by one case for each write.
-/

namespace AVBox

open Program

namespace ContainerAnalyzer

variable {ω : Type} (env : ExtractEnv) (scans : Scans ω)

/-- The event that marks a container at the depth limit. -/
def recursionEvent : String := "RECURSION_LIMIT_REACHED"

/-- What a handler has checked before it writes. -/
def Allowed (s : ExtractState ω) : Write → Prop
  | .stored content => content.length ≤ env.budget.maxSingleChildBytes ∧
      (content ≠ [] → s.usage.totalExtractedBytes + content.length ≤
        env.budget.maxTotalExtractedBytes) ∧
      s.trace.unfinished = content.length
  | .begun relation content => s.usage.childrenMaterialized < env.budget.maxTotalChildren ∧
      (relation = .partitionOf → content ≠ [])
  | .derived object _ => 1 ≤ object.depth ∧ object.depth ≤ env.budget.maxRecursionDepth
  | .charged length => ∃ rest, s.trace.pending = length :: rest
  | _ => True

/-- The services after the scan of a child. -/
def afterScan (s : ExtractState ω) (artifact : InputArtifact) (label : String)
    (content : Bytes) : ω :=
  final (scanChild scans artifact label (childScanners s.job) content) s.scans

/-- One step of an extraction. -/
inductive Step : ExtractState ω → ExtractState ω → Prop
  | write {s : ExtractState ω} (write : Write) (allowed : Allowed env s write) :
      Step s (write.apply s)
  | scan {s : ExtractState ω} (artifact : InputArtifact) (label : String) (content : Bytes) :
      Step s { s with scans := afterScan scans s artifact label content }

/-- Any number of steps. -/
abbrev Steps : ExtractState ω → ExtractState ω → Prop := Relation.ReflTransGen (Step env scans)

variable {env scans}

/-! ## What only grows -/

/-- The completeness of the job is one of the PARTIAL states. -/
def PartlyDone (job : ScanJob) : Prop := ∃ value : Partial, job.completeness = value.text

/-- The parts of a state that an extraction never takes back. -/
structure Grows (s t : ExtractState ω) : Prop where
  events : s.usage.limitEvents ⊆ t.usage.limitEvents
  errors : s.job.errors.length ≤ t.job.errors.length
  materialized : s.usage.childrenMaterialized ≤ t.usage.childrenMaterialized
  partly : PartlyDone s.job → PartlyDone t.job
  points : s.trace.points <+: t.trace.points
  requested : t.job.requestedScanners = s.job.requestedScanners

lemma Grows.refl (s : ExtractState ω) : Grows s s :=
  ⟨fun _ h => h, Nat.le_refl _, Nat.le_refl _, id, List.prefix_rfl, rfl⟩

lemma Grows.trans {s t u : ExtractState ω} (h : Grows s t) (h' : Grows t u) : Grows s u :=
  ⟨fun _ hmem => h'.events (h.events hmem), h.errors.trans h'.errors,
    h.materialized.trans h'.materialized, fun hs => h'.partly (h.partly hs),
    h.points.trans h'.points, h'.requested.trans h.requested⟩

lemma subset_addEvent (usage : ExtractionUsage) (event : String) :
    usage.limitEvents ⊆ (usage.addEvent event).limitEvents := by
  unfold ExtractionUsage.addEvent
  split
  · exact fun _ h => h
  · exact List.subset_append_left _ _

lemma mem_addEvent (usage : ExtractionUsage) (event : String) :
    event ∈ (usage.addEvent event).limitEvents := by
  unfold ExtractionUsage.addEvent
  split
  · assumption
  · simp

@[simp] lemma addEvent_childrenMaterialized (usage : ExtractionUsage) (event : String) :
    (usage.addEvent event).childrenMaterialized = usage.childrenMaterialized := by
  unfold ExtractionUsage.addEvent
  split <;> rfl

@[simp] lemma addEvent_totalExtractedBytes (usage : ExtractionUsage) (event : String) :
    (usage.addEvent event).totalExtractedBytes = usage.totalExtractedBytes := by
  unfold ExtractionUsage.addEvent
  split <;> rfl

@[simp] lemma addEvent_materializedPartitionBytes (usage : ExtractionUsage) (event : String) :
    (usage.addEvent event).materializedPartitionBytes = usage.materializedPartitionBytes := by
  unfold ExtractionUsage.addEvent
  split <;> rfl

/-- The trace of a write before its point is added. -/
lemma note_points (trace : Trace) (write : Write) :
    (write.note trace).points = trace.points := by
  cases write <;> simp only [Write.note]
  split <;> rfl

lemma apply_points (s : ExtractState ω) (write : Write) :
    (write.apply s).trace.points = s.trace.points ++ [(write.change s).point] := by
  simp [Write.apply, note_points]

lemma grows_apply (s : ExtractState ω) (write : Write) : Grows s (write.apply s) := by
  have hpoints : s.trace.points <+: (write.apply s).trace.points := by
    rw [apply_points]
    exact List.prefix_append _ _
  cases write with
  | event name =>
      exact ⟨subset_addEvent _ _, Nat.le_refl _, by simp [Write.apply, Write.change], id, hpoints,
        rfl⟩
  | errors texts =>
      exact ⟨fun _ h => h, by simp [Write.apply, Write.change], Nat.le_refl _, id, hpoints, rfl⟩
  | completeness value =>
      exact ⟨fun _ h => h, Nat.le_refl _, Nat.le_refl _, fun _ => ⟨value, rfl⟩, hpoints, rfl⟩
  | begun relation content =>
      exact ⟨fun _ h => h, Nat.le_refl _, Nat.le_succ _, id, hpoints, rfl⟩
  | _ => exact ⟨fun _ h => h, Nat.le_refl _, Nat.le_refl _, id, hpoints, rfl⟩

lemma Step.grows {s t : ExtractState ω} (h : Step env scans s t) : Grows s t := by
  cases h with
  | write write _ => exact grows_apply s write
  | scan artifact label content =>
      exact ⟨fun _ h => h, Nat.le_refl _, Nat.le_refl _, id, List.prefix_rfl, rfl⟩

/-- The step lemma of an invariant gives its run lemma. -/
lemma Steps.keeps {I : ExtractState ω → Prop} {s t : ExtractState ω}
    (hstep : ∀ u v, I u → Step env scans u v → I v) (h : Steps env scans s t) (hs : I s) : I t := by
  induction h with
  | refl => exact hs
  | tail _ hlast ih => exact hstep _ _ ih hlast

lemma Steps.grows {s t : ExtractState ω} (h : Steps env scans s t) : Grows s t := by
  induction h with
  | refl => exact Grows.refl s
  | tail _ hlast ih => exact ih.trans hlast.grows

/-! ## How a run ends -/

/-- The job of `t` is partial, and has an error that the job of `s` does not have. -/
def Reported (s t : ExtractState ω) : Prop :=
  PartlyDone t.job ∧ s.job.errors.length < t.job.errors.length

lemma Reported.mono {s t s' t' : ExtractState ω} (h : Reported s t) (hs : Grows s' s)
    (ht : Grows t t') : Reported s' t' :=
  ⟨ht.partly h.1, Nat.lt_of_le_of_lt hs.errors (Nat.lt_of_lt_of_le h.2 ht.errors)⟩

/-- An object at the depth limit is no container, or an event says that one was left alone. -/
def Noted (env : ExtractEnv) (t : ExtractState ω) (object : ℕ × Bytes) : Prop :=
  env.budget.maxRecursionDepth ≤ object.1 →
    kindOf env object.2 = .ok none ∨ recursionEvent ∈ t.usage.limitEvents

lemma Noted.mono {t t' : ExtractState ω} {object : ℕ × Bytes} (h : Noted env t object)
    (ht : Grows t t') : Noted env t' object :=
  fun hdepth => (h hdepth).imp id fun hmem => ht.events hmem

/-- A part of an extraction that returned. -/
structure Completed (env : ExtractEnv) (scans : Scans ω) (s t : ExtractState ω) : Prop where
  steps : Steps env scans s t
  pending : t.trace.pending = s.trace.pending
  inside : ∃ caught, t.trace.inside = s.trace.inside ++ caught ∧
    ∀ failure ∈ caught, Guarded failure
  failures : ∃ caught, t.trace.failures = s.trace.failures ++ caught ∧
    (∀ failure ∈ caught, Guarded failure) ∧ (caught ≠ [] → Reported s t)
  objects : ∃ found, t.trace.objects = s.trace.objects ++ found ∧
    ∀ object ∈ found, Noted env t object

/-- A part of an extraction that `exc` left. -/
structure Escaped (env : ExtractEnv) (scans : Scans ω) (exc : Exc) (s t : ExtractState ω) :
    Prop where
  steps : Steps env scans s t
  pending : s.trace.pending <:+ t.trace.pending
  inside : ∃ caught, t.trace.inside = s.trace.inside ++ caught ∧
    ((∀ failure ∈ caught, Guarded failure) ↔ t.trace.pending = [])
  failures : ∃ caught site, t.trace.failures = s.trace.failures ++ caught ++ [(site, exc)] ∧
    (∀ failure ∈ caught, Guarded failure) ∧ ¬Guarded (site, exc)

/-- Both ends of a part of an extraction. -/
abbrev Runs {α : Type} (env : ExtractEnv) (scans : Scans ω) (x : Extract ω α) : Prop :=
  Ends (Completed env scans) (Escaped env scans) x

lemma Completed.refl (s : ExtractState ω) : Completed env scans s s :=
  ⟨.refl, rfl, ⟨[], by simp, by simp⟩, ⟨[], by simp, by simp, by simp⟩, ⟨[], by simp, by simp⟩⟩

lemma Completed.trans {s t u : ExtractState ω} (h : Completed env scans s t)
    (h' : Completed env scans t u) : Completed env scans s u := by
  obtain ⟨caught, hcaught, hguarded, hreported⟩ := h.failures
  obtain ⟨caught', hcaught', hguarded', hreported'⟩ := h'.failures
  obtain ⟨found, hfound, hnoted⟩ := h.objects
  obtain ⟨found', hfound', hnoted'⟩ := h'.objects
  obtain ⟨inner, hinner, hopen⟩ := h.inside
  obtain ⟨inner', hinner', hopen'⟩ := h'.inside
  refine ⟨h.steps.trans h'.steps, h'.pending.trans h.pending,
    ⟨inner ++ inner', by rw [hinner', hinner, List.append_assoc],
      List.forall_mem_append.2 ⟨hopen, hopen'⟩⟩,
    ⟨caught ++ caught', by rw [hcaught', hcaught, List.append_assoc], ?_, ?_⟩,
    ⟨found ++ found', by rw [hfound', hfound, List.append_assoc], ?_⟩⟩
  · intro failure hmem
    exact (List.mem_append.1 hmem).elim (hguarded _) (hguarded' _)
  · intro hne
    by_cases hnil : caught = []
    · exact (hreported' fun hnil' => hne (by simp [hnil, hnil'])).mono h.steps.grows (.refl _)
    · exact (hreported hnil).mono (.refl _) h'.steps.grows
  · intro object hmem
    exact (List.mem_append.1 hmem).elim (fun hm => (hnoted _ hm).mono h'.steps.grows) (hnoted' _)

lemma Completed.escaped {exc : Exc} {s t u : ExtractState ω} (h : Completed env scans s t)
    (h' : Escaped env scans exc t u) : Escaped env scans exc s u := by
  obtain ⟨caught, hcaught, hguarded, -⟩ := h.failures
  obtain ⟨caught', site, hcaught', hguarded', hsite⟩ := h'.failures
  obtain ⟨inner, hinner, hopen⟩ := h.inside
  obtain ⟨inner', hinner', hopen'⟩ := h'.inside
  refine ⟨h.steps.trans h'.steps, h.pending ▸ h'.pending,
    ⟨inner ++ inner', by rw [hinner', hinner, List.append_assoc],
      List.forall_mem_append.trans ((and_iff_right hopen).trans hopen')⟩,
    ⟨caught ++ caught', site, by rw [hcaught', hcaught]; simp, ?_, hsite⟩⟩
  intro failure hmem
  exact (List.mem_append.1 hmem).elim (hguarded _) (hguarded' _)

lemma composes (env : ExtractEnv) (scans : Scans ω) :
    Composes (Completed env scans) (Escaped env scans) :=
  ⟨Completed.refl, fun _ _ _ => Completed.trans, fun _ _ _ _ => Completed.escaped⟩

/-! ## Rules for the writes and calls -/

/-- The writes that leave the record of partitions, failures and objects alone. -/
def Write.quiet : Write → Bool
  | .begun _ _ | .derived _ _ | .charged _ | .failed _ _ => false
  | _ => true

lemma Write.quiet_apply {write : Write} (h : Write.quiet write = true) (s : ExtractState ω) :
    (write.apply s).trace.pending = s.trace.pending ∧
      (write.apply s).trace.inside = s.trace.inside ∧
      (write.apply s).trace.failures = s.trace.failures ∧
      (write.apply s).trace.objects = s.trace.objects := by
  cases write <;> first | exact ⟨rfl, rfl, rfl, rfl⟩ | cases h

lemma completed_write {write : Write} (hquiet : Write.quiet write = true) {s : ExtractState ω}
    (hallowed : Allowed env s write) : Completed env scans s (write.apply s) := by
  obtain ⟨hpending, hinside, hfailures, hobjects⟩ := Write.quiet_apply hquiet s
  exact ⟨.single (.write write hallowed), hpending, ⟨[], by simp [hinside], by simp⟩,
    ⟨[], by simp [hfailures], by simp, by simp⟩, ⟨[], by simp [hobjects], by simp⟩⟩

lemma runs_perform {write : Write} (hquiet : Write.quiet write = true)
    (hallowed : ∀ s : ExtractState ω, Allowed env s write) :
    Runs env scans (perform write : Extract ω Unit) :=
  Ends.modify fun s => completed_write hquiet (hallowed s)

lemma runs_limit (event : String) : Runs env scans (limit event : Extract ω Unit) :=
  runs_perform rfl fun _ => trivial

lemma runs_skip (event : String) : Runs env scans (skip event : Extract ω Unit) :=
  runs_perform rfl fun _ => trivial

/-- An exception leaves a call, inside a partition or not. -/
lemma inside_failed (site : DecodeSite) (exc : Exc) (s : ExtractState ω) :
    ((Write.failed site exc).apply s).trace.inside = s.trace.inside ++
      if s.trace.pending = [] then [] else [(site, exc)] := by
  simp only [Write.apply, Write.note]
  split <;> simp

/-- An exception that no clause around its call catches. -/
lemma escaped_failed {site : DecodeSite} {exc : Exc} (h : ¬Guarded (site, exc))
    (s : ExtractState ω) : Escaped env scans exc s ((Write.failed site exc).apply s) := by
  refine ⟨.single (.write (.failed site exc) trivial), List.suffix_rfl,
    ⟨_, inside_failed site exc s, ?_⟩,
    ⟨[], site, by simp [Write.apply, Write.note], by simp, h⟩⟩
  change _ ↔ s.trace.pending = []
  by_cases hpending : s.trace.pending = [] <;> simp [hpending, h]

lemma runs_decode {α : Type} {site : DecodeSite} (h : site.guards = []) (r : Except Exc α) :
    Runs env scans (decode site r : Extract ω α) := by
  intro s
  cases r with
  | ok a => exact Completed.refl s
  | error exc => exact escaped_failed (by simp [Guarded, h]) s

lemma guarded_error {α : Type} (site : DecodeSite) (exc : Exc) (recover : Exc → Extract ω α)
    (s : ExtractState ω) : guarded site (.error exc) recover s =
      if exc.family ∈ site.guards then recover exc ((Write.failed site exc).apply s)
      else .error exc ((Write.failed site exc).apply s) := by
  simp only [guarded, tryCatch_apply, decode, perform, modify_bind_apply, throw_apply]
  split <;> rfl

/-- A `try` statement around one call: its handler reports what it catches. -/
lemma runs_guarded {α : Type} {site : DecodeSite} {r : Except Exc α}
    {recover : Exc → Extract ω α}
    (h : ∀ exc s, ∃ a t, recover exc s = .ok a t ∧ Completed env scans s t ∧ Reported s t) :
    Runs env scans (guarded site r recover : Extract ω α) := by
  intro s
  cases r with
  | ok a => exact Completed.refl s
  | error exc =>
      rw [guarded_error]
      by_cases hguard : exc.family ∈ site.guards
      · obtain ⟨a, t, hrecover, hcompleted, hreported⟩ :=
          h exc ((Write.failed site exc).apply s)
        obtain ⟨caught, hcaught, hall, -⟩ := hcompleted.failures
        obtain ⟨inner, hinner, hopen⟩ := hcompleted.inside
        have hgrows := grows_apply s (Write.failed site exc)
        simp only [hguard, if_true, hrecover]
        refine ⟨.head (.write (.failed site exc) trivial) hcompleted.steps, hcompleted.pending,
          ⟨(if s.trace.pending = [] then [] else [(site, exc)]) ++ inner, ?_, ?_⟩,
          ⟨(site, exc) :: caught, ?_, ?_, fun _ => hreported.mono hgrows (.refl _)⟩,
          hcompleted.objects⟩
        · rw [hinner, inside_failed, List.append_assoc]
        · refine List.forall_mem_append.2 ⟨fun failure hmem => ?_, hopen⟩
          split at hmem
          · cases hmem
          · obtain rfl := List.mem_singleton.1 hmem
            exact hguard
        · rw [hcaught]
          simp [Write.apply, Write.note]
        · intro failure hmem
          rcases List.mem_cons.1 hmem with rfl | hmem
          · exact hguard
          · exact hall _ hmem
      · simp only [hguard, if_false]
        exact escaped_failed hguard s

end ContainerAnalyzer

end AVBox
