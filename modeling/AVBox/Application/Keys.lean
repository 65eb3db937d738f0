import AVBox.Analyzers.Runs
import AVBox.Application.Service

/-!
# Rows and their ids

A row of the table of jobs is that of the job with its id, because only `save` writes rows.
`serviceStages_keyed` says so of the stages of the assembled service, and `execute_keyed` of a job
with any stages that keep to it.
-/

namespace AVBox

open Program

/-- Each row is that of the job with its id. -/
def Host.Keyed (host : Host) : Prop := ∀ id job, host.jobs id = some job → job.jobId = id

lemma Host.Keyed.saved {host : Host} (h : host.Keyed) (job : ScanJob) : (host.saved job).Keyed := by
  intro id stored hstored
  by_cases hid : id = job.jobId
  · subst hid
    rw [Host.saved_jobs_self] at hstored
    rw [Option.some.inj hstored]
  · rw [Host.saved_jobs_of_ne _ _ hid] at hstored
    exact h id stored hstored

lemma Host.Keyed.congr {host host' : Host} (h : host.Keyed) (hjobs : host'.jobs = host.jobs) :
    host'.Keyed := by
  intro id job hjob
  rw [hjobs] at hjob
  exact h id job hjob

/-- What keeps the rows of a host in order. -/
abbrev KeepsRows {α : Type} (x : EStateM Exc Host α) : Prop :=
  Moves (fun host host' : Host => host.Keyed → host'.Keyed) x

/-- What keeps the rows of the host beside a job in order. -/
abbrev KeepsRowsBeside {α : Type} (x : EStateM Exc ScanState α) : Prop :=
  Moves (fun s t : ScanState => s.host.Keyed → t.host.Keyed) x

section Keeps

variable {α β : Type}

lemma keyed_refl (s : ScanState) : s.host.Keyed → s.host.Keyed := id

lemma keyed_trans (s t u : ScanState) (h : s.host.Keyed → t.host.Keyed)
    (h' : t.host.Keyed → u.host.Keyed) : s.host.Keyed → u.host.Keyed := h' ∘ h

lemma keepsRows_bind {x : EStateM Exc Host α} {f : α → EStateM Exc Host β} (hx : KeepsRows x)
    (hf : ∀ a, KeepsRows (f a)) : KeepsRows (x >>= f) :=
  Moves.bind (fun (_ _ _ : Host) h h' hkeyed => h' (h hkeyed)) hx hf

lemma rows_bind {x : EStateM Exc ScanState α} {f : α → EStateM Exc ScanState β}
    (hx : KeepsRowsBeside x) (hf : ∀ a, KeepsRowsBeside (f a)) : KeepsRowsBeside (x >>= f) :=
  Moves.bind keyed_trans hx hf

lemma rows_get_bind {f : ScanState → EStateM Exc ScanState β}
    (hf : ∀ s, KeepsRowsBeside (f s)) : KeepsRowsBeside (get >>= f) := fun s => hf s s

lemma rows_onHost {x : EStateM Exc Host α} (hx : KeepsRows x) :
    KeepsRowsBeside (onHost x) := Moves.zoom fun s => hx s.host

lemma rows_updateJob (f : ScanJob → ScanJob) : KeepsRowsBeside (updateJob f) :=
  fun _ => id

lemma rows_lift (r : Except Exc α) : KeepsRowsBeside (lift r) := Moves.lift keyed_refl r

lemma rows_raiseIf (e : Option Exc) : KeepsRowsBeside (raiseIf e) :=
  Moves.raiseIf keyed_refl e

lemma rows_pure (a : α) : KeepsRowsBeside (pure a) := Moves.pure keyed_refl a

lemma rows_tryFinally {x : EStateM Exc ScanState α} {fin : EStateM Exc ScanState β}
    (hx : KeepsRowsBeside x) (hfin : KeepsRowsBeside fin) : KeepsRowsBeside (tryFinally x fin) :=
  Moves.tryFinally keyed_trans hx hfin

lemma rows_tryCatch {x : EStateM Exc ScanState α} {handle : Exc → EStateM Exc ScanState α}
    (hx : KeepsRowsBeside x) (hhandle : ∀ e, KeepsRowsBeside (handle e)) :
    KeepsRowsBeside (tryCatch x handle) := Moves.tryCatch keyed_trans hx hhandle

end Keeps

/-! ## The job service -/

lemma JobService.save_keyed (fault : Option Exc) (job : ScanJob) :
    KeepsRows (JobService.save fault job) := by
  refine keepsRows_bind (Moves.raiseIf (fun _ => id) fault) fun _ => ?_
  exact Moves.modify fun host hkeyed => hkeyed.saved job

lemma JobService.transition_keyed (fault : Option Exc) (target : JobStatus) :
    KeepsRowsBeside (JobService.transition fault target) := by
  refine rows_get_bind fun s => rows_bind (rows_lift _) fun job => ?_
  refine rows_bind (rows_updateJob _) fun _ => ?_
  exact rows_onHost (JobService.save_keyed fault job)

lemma JobService.saveScannerStatus_keyed (fault : Option Exc) (status : ScannerRuntimeStatus) :
    KeepsRows (JobService.saveScannerStatus fault status) := by
  refine keepsRows_bind (Moves.raiseIf (fun _ => id) fault) fun _ => ?_
  exact Moves.modify fun host hkeyed => hkeyed.congr rfl

lemma JobService.scannerStatus_keyed (fault : Option Exc) (name : String) :
    KeepsRows (JobService.scannerStatus fault name) :=
  keepsRows_bind (Moves.raiseIf (fun _ => id) fault) fun _ => fun _ => id

namespace ScanService

/-! ## The stages of a job -/

lemma runGeneric_keyed (env : ScanEnv) (name : String) (position : ℕ) :
    KeepsRowsBeside (runGeneric env name position) := by
  refine rows_get_bind fun s => rows_tryCatch ?_ fun exc =>
    rows_updateJob _
  refine rows_bind (rows_lift _) fun result => ?_
  refine rows_bind (rows_updateJob _) fun _ => ?_
  exact rows_onHost (JobService.saveScannerStatus_keyed _ _)

lemma runPrepared_keyed (env : ScanEnv) (name : String) (position : ℕ)
    (previous : Option ScannerRuntimeStatus) (probe : ProbeResult) :
    KeepsRowsBeside (runPrepared env name position previous probe) := by
  refine rows_get_bind fun s => rows_bind (rows_lift _)
    fun result => ?_
  refine rows_bind (rows_updateJob _) fun _ => ?_
  exact rows_onHost (JobService.saveScannerStatus_keyed _ _)

lemma runAdapter_keyed (env : ScanEnv) (name : String) (position : ℕ) :
    KeepsRowsBeside (runAdapter env name position) := by
  refine rows_get_bind fun s => rows_bind (rows_lift _)
    fun probe => Moves.ite (rows_updateJob _) ?_
  refine rows_bind (rows_onHost (JobService.scannerStatus_keyed _ _))
    fun previous => ?_
  refine rows_bind (rows_onHost (JobService.saveScannerStatus_keyed _ _))
    fun _ => ?_
  refine rows_bind (rows_raiseIf _) fun _ => ?_
  exact rows_tryFinally (runPrepared_keyed env name position previous probe)
    (rows_raiseIf _)

lemma runScanners_keyed (env : ScanEnv) (requested : List String) :
    KeepsRowsBeside (runScanners env requested) := by
  refine Moves.forEach keyed_refl keyed_trans fun item _ => ?_
  refine rows_bind (Moves.ite (rows_pure _) (Moves.ite
    (runGeneric_keyed env _ _) (Moves.ite (runAdapter_keyed env _ _)
      (rows_updateJob _)))) fun _ => rows_pure _

/-- The late stages write the rows of the jobs that they add under their ids. -/
structure KeepRows (stages : Stages) : Prop where
  recursion : ∀ process ∈ stages.recursiveAnalyzer, ∀ source, KeepsRowsBeside (process source)
  correlation : ∀ process ∈ stages.correlationService, KeepsRowsBeside process

variable {stages : Stages}

lemma runRecursion_keyed (h : KeepRows stages) (requested : List String) (source : Bytes) :
    KeepsRowsBeside (runRecursion stages requested source) := by
  unfold runRecursion
  cases hprocess : stages.recursiveAnalyzer with
  | none => exact rows_pure ()
  | some process =>
      refine Moves.ite (rows_bind (h.recursion process hprocess source) fun _ => ?_)
        (rows_pure ())
      exact rows_updateJob _

lemma runCorrelation_keyed (h : KeepRows stages) (requested : List String) :
    KeepsRowsBeside (runCorrelation stages requested) := by
  unfold runCorrelation
  cases hprocess : stages.correlationService with
  | none => exact rows_pure ()
  | some process => exact Moves.ite (h.correlation process hprocess) (rows_pure ())

lemma preserve_keyed (env : ScanEnv) (content : Bytes) :
    KeepsRowsBeside (preserve env content) := by
  refine rows_get_bind fun s => Moves.ite ?_ ?_
  · have hadmission : KeepsRows (admission env content s.job) := fun host hkeyed =>
      hkeyed.congr (PreservationService.admitSource_moves _ _ _ _ host).1
    refine rows_bind (rows_onHost hadmission) fun path => ?_
    refine rows_bind (rows_updateJob _) fun _ => ?_
    exact JobService.transition_keyed _ _
  · refine rows_bind (rows_updateJob _) fun _ => ?_
    exact JobService.transition_keyed _ _

lemma attempt_keyed (env : ScanEnv) (h : KeepRows stages) (requested : List String)
    (source : Bytes) (original : ℕ × Digest 64) :
    KeepsRowsBeside (attempt env stages requested source original) := by
  refine rows_bind ?_ fun _ => rows_bind ?_ fun content =>
    preserve_keyed env content
  · refine rows_bind (runScanners_keyed env requested) fun _ => ?_
    refine rows_bind (rows_updateJob _) fun _ => ?_
    exact rows_bind (runRecursion_keyed h requested source) fun _ =>
      runCorrelation_keyed h requested
  · refine rows_get_bind fun s => rows_bind (rows_lift _)
      fun content => ?_
    exact Moves.ite (rows_bind (Moves.throw keyed_refl _) fun _ =>
      rows_pure _) (rows_pure _)

/-- `execute_queued` keeps the rows in order. -/
lemma execute_keyed (env : ScanEnv) (h : KeepRows stages) (source : Bytes) :
    KeepsRowsBeside (execute env stages source) := by
  refine rows_get_bind fun s => Moves.ite (Moves.throw keyed_refl _) ?_
  refine rows_bind (JobService.transition_keyed _ _) fun _ =>
    rows_tryFinally (rows_tryCatch (attempt_keyed env h _ _ _) fun exc => ?_) ?_
  · refine rows_get_bind fun s => ?_
    exact rows_bind (rows_updateJob _) fun _ =>
      JobService.transition_keyed _ _
  · refine rows_get_bind fun s => rows_bind (rows_raiseIf _)
      fun _ => ?_
    exact rows_onHost (JobService.save_keyed _ _)

/-! ## The assembled service -/

lemma withJob_keyed {job : ScanJob} {x : EStateM Exc ScanState Unit} (hx : KeepsRowsBeside x) :
    KeepsRows (withJob job x) := by
  intro host hkeyed
  have hfinal := hx ⟨job, host⟩ hkeyed
  simp only [final, withJob] at hfinal ⊢
  cases hrun : x ⟨job, host⟩ <;> simpa only [hrun] using hfinal

lemma createQueued_keyed (env : ScanEnv) (artifact : InputArtifact) (label : String)
    (requested : List String) : KeepsRows (createQueued env artifact label requested) := by
  have hfresh : KeepsRows freshJobId := fun host hkeyed => hkeyed.congr rfl
  refine keepsRows_bind hfresh fun id => keepsRows_bind (JobService.save_keyed _ _) fun _ => ?_
  exact withJob_keyed <| rows_bind (JobService.transition_keyed _ _) fun _ =>
    JobService.transition_keyed _ _

/-- An extraction whose children go through the service. -/
lemma containerStage_keyed (env : ScanEnv) (h : KeepRows stages) (xenv : ExtractEnv)
    (source : Bytes) : KeepsRowsBeside (containerStage xenv (scansOf env stages) source) := by
  intro s hkeyed
  rw [final_containerStage]
  obtain ⟨t, hsteps, hfinal⟩ := ContainerAnalyzer.process_steps xenv (scansOf env stages) source
    (.fresh s.job s.host)
  rw [hfinal]
  refine hsteps.keeps (I := fun t => t.scans.Keyed) (fun u v hu hstep => ?_) hkeyed
  cases hstep with
  | write write allowed => cases write <;> exact hu
  | scan artifact label content =>
      exact keepsRows_bind (createQueued_keyed env artifact label _)
        (fun job => withJob_keyed (execute_keyed env h content)) u.scans hu

lemma correlation_keyed (cenv : CorrelationService.CorrelationEnv) :
    KeepsRowsBeside (CorrelationService.process cenv) := by
  have hcall (id : JobId) (index : ℕ) (artifact : InputArtifact) (fingerprint : Option String) :
      KeepsRowsBeside (CorrelationService.callProvider cenv id index artifact fingerprint) :=
    rows_bind (fun s hkeyed => hkeyed.congr rfl) fun _ => rows_lift _
  have hfrom (id : JobId) (index used : ℕ) (targets : List CorrelationService.Target) :
      KeepsRowsBeside (CorrelationService.processFrom cenv id index used targets) := by
    induction targets generalizing index used with
    | nil => exact rows_pure ()
    | cons target rest ih =>
        refine Moves.ite (rows_bind (rows_updateJob _) fun _ => ih _ _)
          (Moves.ite (rows_bind (rows_updateJob _) fun _ => ih _ _) ?_)
        refine rows_bind (hcall _ _ _ _) fun result => ?_
        exact rows_bind (rows_updateJob _) fun _ => ih _ _
  exact rows_get_bind fun s => hfrom _ _ _ _

/-- The stages of the assembled service, to any depth. -/
theorem serviceStages_keyed (env : ScanEnv) (xenv : ExtractEnv)
    (cenv : CorrelationService.CorrelationEnv) (depth : ℕ) :
    KeepRows (serviceStages env xenv cenv depth) := by
  have hcorrelation : ∀ process ∈ some (CorrelationService.process cenv),
      KeepsRowsBeside process := by
    intro process hprocess
    obtain rfl := Option.some.inj hprocess
    exact correlation_keyed cenv
  induction depth with
  | zero =>
      refine ⟨fun process hprocess => ?_, hcorrelation⟩
      cases hprocess
  | succ depth ih =>
      refine ⟨fun process hprocess source => ?_, hcorrelation⟩
      obtain rfl := Option.some.inj hprocess
      exact containerStage_keyed env ih xenv source

end ScanService

end AVBox
