import AVBox.Analyzers.Runs
import AVBox.Application.Outcome
import AVBox.Application.Service

/-!
# The life of a job that is executed

`executeStaging` is `execute_queued` together with the staging directory of the job, which the
stages may create and the `finally` clause removes.  `execute_lifecycle` says how every run of a
queued job ends whose saves and whose removal of that directory succeed, whatever the stages do.
The late stages may have any effect at all that leaves the id and the status of the job alone
(`StagesKeep`), and the ones of the assembled service are shown to do so.
-/

namespace AVBox

open Program

namespace ScanService

/-! ## The staging directory -/

/-- A job, its host, and whether `<staging>/<job_id>` is there. -/
structure Workspace where
  scan : ScanState
  staging : Bool

def onScan {α : Type} (x : EStateM Exc ScanState α) : EStateM Exc Workspace α :=
  zoom Workspace.scan (fun scan workspace => { workspace with scan := scan }) x

/-- The `try` statement.  `leaves` says whether it leaves the directory behind. -/
def guardedStaging (env : ScanEnv) (stages : Stages) (leaves : ScanState → Bool) (source : Bytes)
    (job : ScanJob) : EStateM Exc Workspace Unit :=
  tryFinally (onScan (guarded env stages source job))
    (modify fun workspace => { workspace with staging := leaves workspace.scan })

/-- The `finally` clause. -/
def finishStaging (env : ScanEnv) : EStateM Exc Workspace Unit := do
  let workspace ← get
  let job := workspace.scan.job
  if workspace.staging then
    raiseIf (env.fault job.jobId .removeStaging)
  modify fun workspace => { workspace with staging := false }
  onScan (onHost (JobService.save (env.fault job.jobId .saveFinal) job))

/-- `execute_queued`. -/
def executeStaging (env : ScanEnv) (stages : Stages) (leaves : ScanState → Bool)
    (source : Bytes) : EStateM Exc Workspace Unit := do
  let job := (← get).scan.job
  if job.status ≠ .queued then
    throw (.value "job must be QUEUED before execution")
  else
    onScan (JobService.transition (env.fault job.jobId .saveRunning) .running)
    tryFinally (guardedStaging env stages leaves source job) (finishStaging env)

variable {env : ScanEnv} {stages : Stages} {source content : Bytes} {s t u s' : ScanState} {e : Exc}

lemma finishStaging_of_ok {staging : Bool} (h : finish env s = .ok () s') :
    finishStaging env ⟨s, staging⟩ = .ok () ⟨s', false⟩ := by
  obtain ⟨hremove, hsave, rfl⟩ := finish_eq_ok.1 h
  cases staging <;>
    simp [finishStaging, bind_apply, onScan, onHost, zoom, hremove, hsave]

/-- A run that returns has removed the directory. -/
lemma executeStaging_of_ok {staging : Bool} (leaves : ScanState → Bool)
    (h : execute env stages source s = .ok () s') :
    executeStaging env stages leaves source ⟨s, staging⟩ = .ok () ⟨s', false⟩ := by
  obtain ⟨hqueued, t, hguarded, hfinish⟩ := execute_eq_ok h
  have hsaved := saved_of_execute hqueued h
  have hmem : JobStatus.running ∈ transitions s.job.status := by simp [hqueued, transitions]
  have hrunning : JobService.transition (env.fault s.job.jobId .saveRunning) .running s =
      .ok () (running s) := by
    rw [JobService.transition_of_mem hmem, hsaved]
    rfl
  have hstart : onScan (JobService.transition (env.fault s.job.jobId .saveRunning) .running)
      ⟨s, staging⟩ = .ok () ⟨running s, staging⟩ := zoom_of_ok hrunning
  have htry : guardedStaging env stages leaves source s.job ⟨running s, staging⟩ =
      .ok () ⟨t, leaves t⟩ := by
    have hbody : onScan (guarded env stages source s.job) ⟨running s, staging⟩ =
        .ok () ⟨t, staging⟩ := zoom_of_ok hguarded
    rw [guardedStaging, tryFinally_apply, hbody]
    rfl
  unfold executeStaging
  rw [get_bind_apply, if_neg (not_not.2 hqueued), bind_of_ok hstart, tryFinally_apply, htry]
  simp only [finishStaging_of_ok hfinish]

/-! ## What the stages leave alone -/

/-- The id and the status of the job are what they were. -/
def SameJob (s t : ScanState) : Prop := t.job.jobId = s.job.jobId ∧ t.job.status = s.job.status

lemma SameJob.refl (s : ScanState) : SameJob s s := ⟨rfl, rfl⟩

lemma SameJob.trans (s t u : ScanState) (hst : SameJob s t) (htu : SameJob t u) : SameJob s u :=
  ⟨htu.1.trans hst.1, htu.2.trans hst.2⟩

/-- The late stages keep the id and the status of the job, however they end. -/
structure StagesKeep (stages : Stages) : Prop where
  recursive : ∀ process ∈ stages.recursiveAnalyzer, ∀ source, Moves SameJob (process source)
  correlation : ∀ process ∈ stages.correlationService, Moves SameJob process

lemma sameJob_updateJob {f : ScanJob → ScanJob}
    (hid : ∀ job, (f job).jobId = job.jobId) (hstatus : ∀ job, (f job).status = job.status) :
    Moves SameJob (updateJob f) := fun s => ⟨hid s.job, hstatus s.job⟩

/-- All the stages together keep them as well. -/
lemma analyze_sameJob (hstages : StagesKeep stages) (requested : List String) (source : Bytes) :
    Moves SameJob (analyze env stages requested source) := by
  have hrefl := SameJob.refl
  have htrans := SameJob.trans
  have hscanners : Moves SameJob (runScanners env requested) := fun s =>
    ⟨(runScanners_moves env requested s).jobId, (runScanners_moves env requested s).status⟩
  refine Moves.bind htrans hscanners fun _ => ?_
  refine Moves.bind htrans (sameJob_updateJob (fun _ => rfl) fun _ => rfl) fun _ => ?_
  refine Moves.bind htrans ?_ fun _ => ?_
  · unfold runRecursion
    cases hprocess : stages.recursiveAnalyzer with
    | none => exact Moves.pure hrefl _
    | some process =>
        refine Moves.ite ?_ (Moves.pure hrefl _)
        exact Moves.bind htrans (hstages.recursive process hprocess source) fun _ =>
          sameJob_updateJob (fun _ => rfl) fun _ => rfl
  · unfold runCorrelation
    cases hprocess : stages.correlationService with
    | none => exact Moves.pure hrefl _
    | some process =>
        exact Moves.ite (hstages.correlation process hprocess) (Moves.pure hrefl _)

/-! ## How the `try` statement ends -/

/-- The calls that the service relies on: every save of the job, and the removal of its staging
directory. -/
def SavesSucceed (env : ScanEnv) (id : JobId) : Prop :=
  ∀ site ∈ [Site.saveRunning, .saveOutcome, .saveFailed, .removeStaging, .saveFinal],
    env.fault id site = none

/-- No exception reaches the outer handler. -/
def Unraised (env : ScanEnv) (stages : Stages) (source : Bytes) (s : ScanState) : Prop :=
  Returns (attempt env stages s.job.requestedScanners source (submitted s.job)) (running s)

/-- The status a job that was not interrupted has for its verdict. -/
def outcomeOf (verdict : Verdict) : JobStatus :=
  if verdict.positive then .quarantined else .complete

lemma preserve_ends (hstatus : s.job.status = .running)
    (hsave : env.fault s.job.jobId .saveOutcome = none) :
    (∀ t, preserve env content s = .ok () t →
      t.job.status = outcomeOf t.job.normalizedVerdict ∧ t.job.jobId = s.job.jobId) ∧
    ∀ e t, preserve env content s = .error e t → t.job = s.job := by
  cases hpositive : s.job.normalizedVerdict.positive with
  | true =>
      rw [preserve_of_positive hstatus hpositive, hsave]
      cases admission env content s.job s.host with
      | error e host =>
          refine ⟨fun _ h => (by cases h), fun e' t h => ?_⟩
          cases h
          rfl
      | ok path host =>
          refine ⟨fun t h => ?_, fun _ _ h => (by cases h)⟩
          cases h
          simp [outcomeOf, decided, hpositive]
  | false =>
      rw [preserve_of_not_positive hstatus hpositive, hsave]
      refine ⟨fun t h => ?_, fun _ _ h => (by cases h)⟩
      cases h
      simp [outcomeOf, decided, hpositive]

/-- The body of the `try` statement ends with the outcome of the job, for a source that is what
was submitted, or it raises and the job is still RUNNING. -/
lemma attempt_ends (hstages : StagesKeep stages)
    (hsaves : SavesSucceed env s.job.jobId) :
    (∀ t, attempt env stages s.job.requestedScanners source (submitted s.job) (running s) =
        .ok () t →
      t.job.jobId = s.job.jobId ∧ t.job.status = outcomeOf t.job.normalizedVerdict ∧
        ∃ content, env.sourceAfter s.job.jobId = .ok content ∧
          (content.length, env.sha256 content) = submitted s.job) ∧
    ∀ e t, attempt env stages s.job.requestedScanners source (submitted s.job) (running s) =
        .error e t →
      t.job.jobId = s.job.jobId ∧ t.job.status = .running := by
  have hsame := @analyze_sameJob env stages hstages s.job.requestedScanners source (running s)
  unfold attempt
  cases hanalyze : analyze env stages s.job.requestedScanners source (running s) with
  | error e t =>
      rw [final_of_error hanalyze] at hsame
      rw [bind_of_error hanalyze]
      refine ⟨fun _ h => (by cases h), fun e' t' h => ?_⟩
      cases h
      exact hsame
  | ok a t =>
      rw [final_of_ok hanalyze] at hsame
      rw [bind_of_ok hanalyze]
      have hstate := @checkSource_state env (submitted s.job) t
      cases hcheck : checkSource env (submitted s.job) t with
      | error e u =>
          rw [final_of_error hcheck] at hstate
          rw [bind_of_error hcheck, hstate]
          refine ⟨fun _ h => (by cases h), fun e' t' h => ?_⟩
          cases h
          exact hsame
      | ok content u =>
          obtain ⟨rfl, hread, horiginal⟩ := checkSource_eq_ok hcheck
          rw [bind_of_ok hcheck]
          have hsave : env.fault u.job.jobId .saveOutcome = none := by
            rw [hsame.1]
            exact hsaves _ (by simp)
          obtain ⟨hok, herror⟩ := @preserve_ends env content u hsame.2 hsave
          constructor
          · intro v hpreserve
            obtain ⟨hstatus, hid⟩ := hok v hpreserve
            exact ⟨hid.trans hsame.1, hstatus, content, hsame.1 ▸ hread, horiginal⟩
          · intro e v hpreserve
            rw [herror e v hpreserve]
            exact hsame

/-! ## Whole runs -/

/-- How a run that started in `s` has ended. -/
structure Ended (env : ScanEnv) (stages : Stages) (source : Bytes) (s s' : ScanState) : Prop where
  terminal : s'.job.status.terminal = true
  row : s'.host.jobs s.job.jobId = some s'.job
  quarantined : s'.job.status = .quarantined ↔
    Unraised env stages source s ∧ s'.job.normalizedVerdict.positive = true
  complete : s'.job.status = .complete ↔
    Unraised env stages source s ∧ s'.job.normalizedVerdict.positive = false
  failed : s'.job.status = .failed ↔ ¬Unraised env stages source s
  source : s'.job.status ∈ outcomes → ∃ content, env.sourceAfter s.job.jobId = .ok content ∧
    (content.length, env.sha256 content) = submitted s.job

lemma execute_via {t : ScanState} (hqueued : s.job.status = .queued)
    (hsaves : SavesSucceed env s.job.jobId)
    (hguarded : guarded env stages source s.job (running s) = .ok () t)
    (hid : t.job.jobId = s.job.jobId) :
    execute env stages source s = .ok () ⟨t.job, t.host.saved t.job⟩ := by
  have hfinish : finish env t = .ok () ⟨t.job, t.host.saved t.job⟩ :=
    finish_eq_ok.2 ⟨hid ▸ hsaves _ (by simp), hid ▸ hsaves _ (by simp), rfl⟩
  rw [execute_of_saved hqueued (hsaves _ (by simp)), tryFinally_apply, hguarded]
  simp only [hfinish]

/-- Every run of a queued job ends, if the saves of the job and the removal succeed. -/
lemma execute_ends (hstages : StagesKeep stages) (hqueued : s.job.status = .queued)
    (hsaves : SavesSucceed env s.job.jobId) :
    ∃ s', execute env stages source s = .ok () s' ∧ Ended env stages source s s' := by
  obtain ⟨hok, herror⟩ := @attempt_ends env stages source s hstages hsaves
  cases hattempt : attempt env stages s.job.requestedScanners source (submitted s.job)
      (running s) with
  | ok a t =>
      obtain ⟨hid, hstatus, hsource⟩ := hok t hattempt
      have hunraised : Unraised env stages source s := returns_of_ok hattempt
      have hguarded : guarded env stages source s.job (running s) = .ok () t := by
        rw [guarded, tryCatch_apply, hattempt]
      refine ⟨_, execute_via hqueued hsaves hguarded hid, ?_⟩
      have hcases : t.job.status = .quarantined ∧ t.job.normalizedVerdict.positive = true ∨
          t.job.status = .complete ∧ t.job.normalizedVerdict.positive = false := by
        rw [hstatus, outcomeOf]
        cases t.job.normalizedVerdict.positive <;> simp
      have hrow : (t.host.saved t.job).jobs s.job.jobId = some t.job := by
        rw [← hid, Host.saved_jobs_self]
      rcases hcases with ⟨hdone, hpositive⟩ | ⟨hdone, hpositive⟩ <;>
        exact
          { terminal := by simp [hdone, JobStatus.terminal]
            row := hrow
            quarantined := by simp [hdone, hpositive, hunraised]
            complete := by simp [hdone, hpositive, hunraised]
            failed := by simp [hdone, hunraised]
            source := fun _ => hsource }
  | error e t =>
      obtain ⟨hid, hstatus⟩ := herror e t hattempt
      have hraised : ¬Unraised env stages source s := not_returns_iff.2 ⟨e, t, hattempt⟩
      have hsave : env.fault t.job.jobId .saveFailed = none := hid ▸ hsaves _ (by simp)
      have hguarded : guarded env stages source s.job (running s) = fail env e t := by
        rw [guarded, tryCatch_apply, hattempt]
      rw [fail_of_running hstatus, hsave] at hguarded
      refine ⟨_, execute_via hqueued hsaves hguarded hid, ?_⟩
      exact
        { terminal := rfl
          row := hid ▸ Host.saved_jobs_self _ _
          quarantined := by simp [hraised]
          complete := by simp [hraised]
          failed := by simp [hraised]
          source := by simp [outcomes] }

/-! ## Which scanners are run -/

/-- The loop over the requested scanners comes to this position. -/
def ComesTo (env : ScanEnv) (s : ScanState) (position : ℕ) : Prop :=
  Returns (runScanners env (s.job.requestedScanners.take position)) (running s)

/-! ## The late stages of the assembled service -/

lemma write_sameJob {ω : Type} (t : ExtractState ω) (write : Write) :
    (write.apply t).job.jobId = t.job.jobId ∧ (write.apply t).job.status = t.job.status := by
  cases write <;> exact ⟨rfl, rfl⟩

/-- The steps of an extraction keep the id and the status of the job. -/
lemma steps_sameJob {ω : Type} {xenv : ExtractEnv} {scans : Scans ω} {t u : ExtractState ω}
    (h : ContainerAnalyzer.Steps xenv scans t u) :
    u.job.jobId = t.job.jobId ∧ u.job.status = t.job.status := by
  induction h with
  | refl => exact ⟨rfl, rfl⟩
  | tail _ hlast ih =>
      cases hlast with
      | write write _ =>
          obtain ⟨hid, hstatus⟩ := write_sameJob _ write
          exact ⟨hid.trans ih.1, hstatus.trans ih.2⟩
      | scan artifact label content => exact ih

lemma containerStage_sameJob (xenv : ExtractEnv) (scans : Scans Host) (source : Bytes) :
    Moves SameJob (containerStage xenv scans source) := by
  intro s
  obtain ⟨t, hsteps, hfinal⟩ :=
    ContainerAnalyzer.process_steps xenv scans source (.fresh s.job s.host)
  rw [final_containerStage, hfinal]
  exact steps_sameJob hsteps

/-- The container analyzer and the correlation service keep them. -/
lemma serviceStages_keep (env : ScanEnv) (xenv : ExtractEnv)
    (cenv : CorrelationService.CorrelationEnv) (depth : ℕ) :
    StagesKeep (serviceStages env xenv cenv depth) := by
  have hcorrelation : Moves SameJob (CorrelationService.process cenv) := fun s =>
    have hframe := CorrelationService.process_correlationFrame cenv env.sha256 s
    ⟨hframe.jobId, hframe.status⟩
  cases depth with
  | zero =>
      refine ⟨fun process h => (by cases h), fun process h => ?_⟩
      cases h
      exact hcorrelation
  | succ depth =>
      refine ⟨fun process h => ?_, fun process h => ?_⟩
      · cases h
        exact containerStage_sameJob xenv _
      · cases h
        exact hcorrelation

/-- A job that is executed ends as its verdict and the exceptions say, whatever its stages do, and
only an adapter can keep the scanners behind it from being run. -/
theorem execute_lifecycle (hstages : StagesKeep stages) (hqueued : s.job.status = .queued)
    (hsaves : SavesSucceed env s.job.jobId) (leaves : ScanState → Bool) (staging : Bool) :
    (∃ s', executeStaging env stages leaves source ⟨s, staging⟩ = .ok () ⟨s', false⟩ ∧
        Ended env stages source s s') ∧
      ∀ position, ComesTo env s position ↔
        ScannersReturn env s.job.jobId (s.job.requestedScanners.take position) := by
  refine ⟨?_, fun position => runScanners_returns _ _ _⟩
  obtain ⟨s', hrun, hended⟩ := @execute_ends env stages source s hstages hqueued hsaves
  exact ⟨s', executeStaging_of_ok leaves hrun, hended⟩

/-- Two adapters of which the second raises, and a staging directory that both have used. -/
theorem execute_lifecycle_raises :
    let env := matchEnv (.error ⟨.osError, "PermissionError", "yara"⟩)
    let s := queuedJob ["clamav", "yara"]
    ∃ s', executeStaging env ⟨none, none⟩ (fun _ => true) [] ⟨s, false⟩ = .ok () ⟨s', false⟩ ∧
      Ended env ⟨none, none⟩ [] s s' :=
  (execute_lifecycle ⟨fun _ h => (by cases h), fun _ h => (by cases h)⟩ rfl (fun _ _ => rfl)
    (fun _ => true) false).1

end ScanService

end AVBox
