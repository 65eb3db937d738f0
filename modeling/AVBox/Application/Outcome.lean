import AVBox.Application.Lifecycle

/-!
# What a run leaves in the jobs table

Whether `execute_queued` returns or raises, and what it leaves in the row of its job, depends on
two things: whether the run gets as far as deciding the outcome of the job (`OutcomeReached`),
and which of the calls after that point fail.  The lemmas `execute_reached_stored`,
`execute_reached_not_stored`, `execute_not_reached` and `execute_of_not_saved` cover the cases.
-/

namespace AVBox

open Program

namespace ScanService

variable {env : ScanEnv} {late : LateOutcomes env.sha256} {source content : Bytes}
  {s s' : ScanState} {e : Exc}

/-! ## Reaching an outcome -/

/-- The stages returned, the source was unchanged and an admission that was asked for returned:
all that is left is to store the outcome. -/
def OutcomeReached (env : ScanEnv) (stages : Stages) (source : Bytes) (s : ScanState) : Prop :=
  ∃ t content, analyze env stages s.job.requestedScanners source (running s) = .ok () t ∧
    checkSource env (submitted s.job) t = .ok content t ∧
    (t.job.normalizedVerdict.positive = true → Returns (admission env content t.job) t.host)

/-- The row of the job has this status. -/
def StoredAs (host : Host) (id : JobId) (statuses : List JobStatus) : Prop :=
  ∃ stored, host.jobs id = some stored ∧ stored.jobId = id ∧ stored.status ∈ statuses

/-- The statuses a job can have once its outcome is decided. -/
def outcomes : List JobStatus := [.complete, .quarantined]

/-- An admission writes the quarantine only. -/
lemma admission_jobs (content : Bytes) (job : ScanJob) (host : Host) :
    (final (admission env content job) host).jobs = host.jobs :=
  (PreservationService.admitSource_moves _ _ _ _ host).1

/-- An outcome that is reached is decided in memory, and stored unless that save fails. -/
lemma attempt_of_reached (hissued : ScanState.Issued s)
    (hreached : OutcomeReached env late.stages source s) :
    ∃ u, u.job.jobId = s.job.jobId ∧ u.job.status ∈ outcomes ∧
      match env.fault s.job.jobId .saveOutcome with
      | none => attempt env late.stages s.job.requestedScanners source (submitted s.job)
            (running s) = .ok () u ∧ u.host.jobs s.job.jobId = some u.job
      | some e => attempt env late.stages s.job.requestedScanners source (submitted s.job)
            (running s) = .error e u ∧ StoredAs u.host s.job.jobId [.running] := by
  obtain ⟨t, content, hanalyze, hcheck, hadmission⟩ := hreached
  have hframe : StageFrame env.sha256 (running s) t :=
    final_of_ok hanalyze ▸ analyze_frame hissued
  have hid : t.job.jobId = s.job.jobId := hframe.jobId
  have hrow : StoredAs t.host s.job.jobId [.running] := by
    exact ⟨_, (hframe.rows s.job.jobId hissued).trans (Host.saved_jobs_self _ _), rfl,
      List.mem_singleton_self _⟩
  have hdecide : attempt env late.stages s.job.requestedScanners source (submitted s.job)
      (running s) = preserve env content t := by
    unfold attempt
    rw [bind_of_ok hanalyze, bind_of_ok hcheck]
  rw [hdecide]
  by_cases hpositive : t.job.normalizedVerdict.positive = true
  · obtain ⟨path, host, hok⟩ := returns_iff.1 (hadmission hpositive)
    rw [preserve_of_positive hframe.status hpositive, hok, hid]
    simp only
    cases hfault : env.fault s.job.jobId .saveOutcome with
    | none =>
        refine ⟨_, ?_, ?_, rfl, ?_⟩
        · exact hid
        · simp [decided, outcomes]
        · exact hid ▸ Host.saved_jobs_self _ _
    | some e =>
        refine ⟨_, ?_, ?_, rfl, ?_⟩
        · exact hid
        · simp [decided, outcomes]
        · have hjobs := @admission_jobs env content t.job t.host
          rw [final_of_ok hok] at hjobs
          simpa only [StoredAs, hjobs] using hrow
  · rw [preserve_of_not_positive hframe.status (by simpa using hpositive), hid]
    simp only
    cases hfault : env.fault s.job.jobId .saveOutcome with
    | none =>
        refine ⟨_, ?_, ?_, rfl, ?_⟩
        · exact hid
        · simp [decided, outcomes]
        · exact hid ▸ Host.saved_jobs_self _ _
    | some e =>
        refine ⟨_, ?_, ?_, rfl, ?_⟩
        · exact hid
        · simp [decided, outcomes]
        · exact hrow

/-- Short of its outcome the job stays RUNNING, in memory and in its row. -/
lemma attempt_of_not_reached (hissued : ScanState.Issued s)
    (hreached : ¬OutcomeReached env late.stages source s) :
    ∃ e u, attempt env late.stages s.job.requestedScanners source (submitted s.job)
        (running s) = .error e u ∧ u.job.jobId = s.job.jobId ∧ u.job.status = .running ∧
      StoredAs u.host s.job.jobId [.running] := by
  have hrow : ∀ t, StageFrame env.sha256 (running s) t → StoredAs t.host s.job.jobId [.running] :=
    fun t hframe => ⟨_, (hframe.rows s.job.jobId hissued).trans (Host.saved_jobs_self _ _),
      rfl, List.mem_singleton_self _⟩
  have hanalyzed : StageFrame env.sha256 (running s)
      (final (analyze env late.stages s.job.requestedScanners source) (running s)) :=
    analyze_frame hissued
  unfold attempt
  cases hanalyze : analyze env late.stages s.job.requestedScanners source (running s) with
  | error e t =>
      rw [final_of_error hanalyze] at hanalyzed
      exact ⟨e, t, bind_of_error hanalyze _, hanalyzed.jobId, hanalyzed.status, hrow t hanalyzed⟩
  | ok a t =>
      rw [final_of_ok hanalyze] at hanalyzed
      rw [bind_of_ok hanalyze]
      have hsame := @checkSource_state env (submitted s.job) t
      cases hcheck : checkSource env (submitted s.job) t with
      | error e u =>
          rw [final_of_error hcheck] at hsame
          exact ⟨e, t, by rw [bind_of_error hcheck, hsame], hanalyzed.jobId, hanalyzed.status,
            hrow t hanalyzed⟩
      | ok content u =>
          rw [final_of_ok hcheck] at hsame
          subst hsame
          have hrefused : ¬(u.job.normalizedVerdict.positive = true →
              Returns (admission env content u.job) u.host) :=
            fun hadmission => hreached ⟨u, content, hanalyze, hcheck, hadmission⟩
          obtain ⟨hpositive, hraises⟩ := Classical.not_imp.1 hrefused
          obtain ⟨e, host, hraises⟩ := not_returns_iff.1 hraises
          refine ⟨e, ⟨u.job, host⟩, ?_, hanalyzed.jobId, hanalyzed.status, ?_⟩
          · rw [bind_of_ok hcheck, preserve_of_positive hanalyzed.status hpositive, hraises]
          · have hjobs := @admission_jobs env content u.job u.host
            rw [final_of_error hraises] at hjobs
            simpa only [StoredAs, hjobs] using hrow u hanalyzed

/-- Both calls of the `finally` clause return. -/
def FinishClean (env : ScanEnv) (id : JobId) : Prop :=
  env.fault id .removeStaging = none ∧ env.fault id .saveFinal = none

/-- The `finally` clause stores the job when both its calls return, and nothing otherwise. -/
lemma finish_row (u : ScanState) :
    (final (finish env) u).job = u.job ∧
      (Returns (finish env) u ↔ FinishClean env u.job.jobId) ∧
      (FinishClean env u.job.jobId → (final (finish env) u).host = u.host.saved u.job) ∧
      (¬FinishClean env u.job.jobId → (final (finish env) u).host = u.host) := by
  unfold finish FinishClean
  cases hstaging : env.fault u.job.jobId .removeStaging <;>
    cases hfinal : env.fault u.job.jobId .saveFinal <;>
    simp [final, returns_iff, bind_apply, hstaging, hfinal, onHost, zoom]

lemma execute_of_saved {stages : Stages} (hqueued : s.job.status = .queued)
    (hsaved : env.fault s.job.jobId .saveRunning = none) :
    execute env stages source s =
      tryFinally (guarded env stages source s.job) (finish env) (running s) := by
  have hmem : JobStatus.running ∈ transitions s.job.status := by simp [hqueued, transitions]
  unfold execute
  rw [get_bind_apply, if_neg (not_not.2 hqueued), bind_apply, JobService.transition_of_mem hmem,
    hsaved]
  rfl

/-- When the transition to RUNNING is not saved the run raises before it has touched the row. -/
lemma execute_of_not_saved {stages : Stages} (hqueued : s.job.status = .queued)
    (hsaved : env.fault s.job.jobId .saveRunning ≠ none) :
    ∃ e, execute env stages source s =
      .error e ⟨{ s.job with status := .running }, s.host⟩ := by
  have hmem : JobStatus.running ∈ transitions s.job.status := by simp [hqueued, transitions]
  obtain ⟨e, he⟩ := Option.ne_none_iff_exists'.1 hsaved
  refine ⟨e, ?_⟩
  unfold execute
  rw [get_bind_apply, if_neg (not_not.2 hqueued), bind_apply, JobService.transition_of_mem hmem, he]

/-- A run that succeeds has saved it. -/
lemma saved_of_execute {stages : Stages} {s' : ScanState} (hqueued : s.job.status = .queued)
    (h : execute env stages source s = .ok () s') : env.fault s.job.jobId .saveRunning = none := by
  by_contra hnot
  obtain ⟨e, hraise⟩ := @execute_of_not_saved env source s stages hqueued hnot
  rw [hraise] at h
  cases h

/-- A run of a queued job that got past its first save: what the `try` statement leaves behind,
and the `finally` clause after it. -/
lemma execute_via_guarded {stages : Stages} (hqueued : s.job.status = .queued)
    (hsaved : env.fault s.job.jobId .saveRunning = none) :
    (Returns (execute env stages source) s ↔
      Returns (guarded env stages source s.job) (running s) ∧
        Returns (finish env) (final (guarded env stages source s.job) (running s))) ∧
    final (execute env stages source) s =
      final (finish env) (final (guarded env stages source s.job) (running s)) := by
  rw [← returns_tryFinally, ← final_tryFinally]
  simp only [Returns, raised, final, execute_of_saved hqueued hsaved, iff_self, and_self]

/-- A relation that the steps behind the stages stay in holds between the state the stages leave
behind and the one the whole run does. -/
lemma execute_after_stages {stages : Stages} {R : ScanState → ScanState → Prop}
    (hrefl : ∀ t, R t t) (htrans : ∀ t u v, R t u → R u v → R t v)
    (hpreserve : ∀ content, Moves R (preserve env content))
    (hfail : ∀ e, Moves R (fail env e)) (hfinish : Moves R (finish env))
    (hqueued : s.job.status = .queued) (hsaved : env.fault s.job.jobId .saveRunning = none) :
    R (final (analyze env stages s.job.requestedScanners source) (running s))
      (final (execute env stages source) s) := by
  have hrest : Moves R (do
      let content ← checkSource env (submitted s.job)
      preserve env content) :=
    Moves.bind htrans (fun t => by rw [checkSource_state]; exact hrefl t) hpreserve
  obtain ⟨-, hfinal⟩ := @execute_via_guarded env source s stages hqueued hsaved
  rw [hfinal]
  refine htrans _ _ _ ?_ (hfinish _)
  have hattempt : R (final (analyze env stages s.job.requestedScanners source) (running s))
      (final (attempt env stages s.job.requestedScanners source (submitted s.job))
        (running s)) := by
    cases hanalyze : analyze env stages s.job.requestedScanners source (running s) with
    | ok a t =>
        rw [final_of_ok hanalyze, attempt, final_bind_of_ok hanalyze]
        exact hrest t
    | error e t =>
        rw [final_of_error hanalyze, attempt, final_bind_of_error hanalyze]
        exact hrefl t
  refine htrans _ _ _ hattempt ?_
  cases hrun : attempt env stages s.job.requestedScanners source (submitted s.job) (running s) with
  | ok a t =>
      have hguarded : guarded env stages source s.job (running s) = .ok a t := by
        rw [guarded, tryCatch_apply, hrun]
      rw [final_of_ok hguarded, final_of_ok hrun]
      exact hrefl t
  | error e t =>
      have hguarded : final (guarded env stages source s.job) (running s) =
          final (fail env e) t := by
        unfold final
        rw [guarded, tryCatch_apply, hrun]
      rw [hguarded, final_of_error hrun]
      exact hfail e t

/-- What a job says besides its status, the decision about it and its errors. -/
structure Untouched {β : Type} (f : ScanJob → β) : Prop where
  status : ∀ job status, f { job with status := status } = f job
  decision : ∀ job decision, f { job with preservationDecision := decision } = f job
  errors : ∀ job text, f (job.addError text) = f job

/-- Behind the stages it does not change. -/
lemma execute_untouched {β : Type} {f : ScanJob → β} {stages : Stages} (hf : Untouched f)
    (hqueued : s.job.status = .queued) (hsaved : env.fault s.job.jobId .saveRunning = none) :
    f (final (execute env stages source) s).job =
      f (final (analyze env stages s.job.requestedScanners source) (running s)).job := by
  have htrans : ∀ t u v : ScanState, f u.job = f t.job → f v.job = f u.job → f v.job = f t.job :=
    fun _ _ _ htu huv => huv.trans htu
  have htransition : ∀ fault target,
      Moves (fun t u => f u.job = f t.job) (JobService.transition fault target) := by
    intro fault target t
    by_cases hmem : target ∈ transitions t.job.status
    · have hrun := @JobService.transition_of_mem fault target t hmem
      cases fault with
      | none => rw [final_of_ok hrun]; exact hf.status _ _
      | some exc => rw [final_of_error hrun]; exact hf.status _ _
    · rw [final_of_error (JobService.transition_of_not_mem hmem)]
  have hadmission : ∀ content job,
      Moves (fun t u => f u.job = f t.job) (onHost (admission env content job)) :=
    fun content job => Moves.zoom fun _ => rfl
  have hdecide : ∀ decision, Moves (fun t u : ScanState => f u.job = f t.job)
      (updateJob fun job => { job with preservationDecision := decision }) :=
    fun decision t => hf.decision _ _
  refine @execute_after_stages env source s stages (fun t u => f u.job = f t.job) (fun _ => rfl)
    htrans (fun content => ?_) (fun exc => ?_) ?_ hqueued hsaved
  · refine Moves.bind htrans (Moves.get fun _ => rfl) fun t => Moves.ite ?_ ?_
    · refine Moves.bind htrans (hadmission _ _) fun path => ?_
      exact Moves.bind htrans (hdecide _) fun _ => htransition _ _
    · exact Moves.bind htrans (hdecide _) fun _ => htransition _ _
  · refine Moves.bind htrans (Moves.get fun _ => rfl) fun t => ?_
    exact Moves.bind htrans (fun t => hf.errors _ _) fun _ => htransition _ _
  · exact fun t => congrArg f (@finish_row env t).1

/-- After its outcome was reached and stored, the row keeps it. -/
lemma execute_reached_stored (hissued : ScanState.Issued s) (hqueued : s.job.status = .queued)
    (hsaved : env.fault s.job.jobId .saveRunning = none)
    (hreached : OutcomeReached env late.stages source s)
    (houtcome : env.fault s.job.jobId .saveOutcome = none) :
    (Returns (execute env late.stages source) s ↔ FinishClean env s.job.jobId) ∧
      StoredAs (final (execute env late.stages source) s).host s.job.jobId outcomes := by
  obtain ⟨u, hid, hstatus, hattempt⟩ := attempt_of_reached hissued hreached
  rw [houtcome] at hattempt
  obtain ⟨hattempt, hrow⟩ := hattempt
  have hguarded : guarded env late.stages source s.job (running s) = .ok () u := by
    rw [guarded, tryCatch_apply, hattempt]
  obtain ⟨hreturns, hfinal⟩ :=
    @execute_via_guarded env source s late.stages hqueued hsaved
  obtain ⟨-, hfinish, hclean, hunclean⟩ := @finish_row env u
  rw [hid] at hfinish hclean hunclean
  rw [hreturns, hfinal, final_of_ok hguarded, hfinish]
  refine ⟨⟨And.right, fun h => ⟨returns_of_ok hguarded, h⟩⟩, u.job, ?_, hid, hstatus⟩
  by_cases hcase : FinishClean env s.job.jobId
  · rw [hclean hcase, ← hid, Host.saved_jobs_self]
  · rw [hunclean hcase, hrow]

/-- An outcome that was reached but not stored: the `except` clause raises in turn, and only the
`finally` clause can still store the job. -/
lemma execute_reached_not_stored (hissued : ScanState.Issued s)
    (hqueued : s.job.status = .queued) (hsaved : env.fault s.job.jobId .saveRunning = none)
    (hreached : OutcomeReached env late.stages source s)
    (houtcome : env.fault s.job.jobId .saveOutcome ≠ none) :
    ¬Returns (execute env late.stages source) s ∧
      StoredAs (final (execute env late.stages source) s).host s.job.jobId
        (.running :: outcomes) ∧
      (StoredAs (final (execute env late.stages source) s).host s.job.jobId outcomes ↔
        FinishClean env s.job.jobId) := by
  obtain ⟨e, he⟩ := Option.ne_none_iff_exists'.1 houtcome
  obtain ⟨u, hid, hstatus, hattempt⟩ := attempt_of_reached hissued hreached
  rw [he] at hattempt
  obtain ⟨hattempt, stored, hrow, hsid, hstored⟩ := hattempt
  have hguarded : guarded env late.stages source s.job (running s) =
      .error ((u.job.addError e.text).transitionError .failed)
        ⟨u.job.addError e.text, u.host⟩ := by
    rw [guarded, tryCatch_apply, hattempt]
    exact fail_of_decided hstatus e
  obtain ⟨hreturns, hfinal⟩ := @execute_via_guarded env source s late.stages hqueued hsaved
  obtain ⟨-, hfinish, hclean, hunclean⟩ := @finish_row env ⟨u.job.addError e.text, u.host⟩
  have hid' : (u.job.addError e.text).jobId = s.job.jobId := hid
  simp only [hid'] at hfinish hclean hunclean
  have hraises : ¬Returns (guarded env late.stages source s.job) (running s) :=
    not_returns_iff.2 ⟨_, _, hguarded⟩
  rw [hreturns, hfinal, final_of_error hguarded]
  refine ⟨fun h => hraises h.1, ?_⟩
  by_cases hcase : FinishClean env s.job.jobId
  · have hkept : StoredAs (u.host.saved (u.job.addError e.text)) s.job.jobId outcomes :=
      ⟨u.job.addError e.text, by rw [← hid', Host.saved_jobs_self], hid', hstatus⟩
    rw [hclean hcase]
    obtain ⟨stored', hrow', hsid', hstatus'⟩ := hkept
    exact ⟨⟨stored', hrow', hsid', List.mem_cons_of_mem _ hstatus'⟩, fun _ => hcase,
      fun _ => ⟨stored', hrow', hsid', hstatus'⟩⟩
  · rw [hunclean hcase]
    rw [List.mem_singleton] at hstored
    refine ⟨⟨stored, hrow, hsid, by simp [hstored]⟩, ?_, fun h => absurd h hcase⟩
    rintro ⟨stored', hrow', -, hstatus'⟩
    obtain rfl := Option.some.inj (hrow.symm.trans hrow')
    simp [hstored, outcomes] at hstatus'

/-- The `finally` clause of a job that is FAILED in memory. -/
lemma finish_of_failed {job : ScanJob} {host : Host} (hstatus : job.status = .failed)
    (hrow : StoredAs host job.jobId [.running, .failed]) :
    (Returns (finish env) ⟨job, host⟩ ↔ FinishClean env job.jobId) ∧
      StoredAs (final (finish env) ⟨job, host⟩).host job.jobId [.running, .failed] ∧
      (FinishClean env job.jobId →
        StoredAs (final (finish env) ⟨job, host⟩).host job.jobId [.failed]) := by
  obtain ⟨-, hfinish, hclean, hunclean⟩ := @finish_row env ⟨job, host⟩
  have hsaved : StoredAs (host.saved job) job.jobId [.failed] :=
    ⟨job, Host.saved_jobs_self _ _, rfl, by simp [hstatus]⟩
  refine ⟨hfinish, ?_, fun hcase => by rw [hclean hcase]; exact hsaved⟩
  by_cases hcase : FinishClean env job.jobId
  · obtain ⟨stored, hstored, hsid, hmem⟩ := hsaved
    rw [hclean hcase]
    exact ⟨stored, hstored, hsid, List.mem_cons_of_mem _ hmem⟩
  · rw [hunclean hcase]
    exact hrow

/-- Short of its outcome a job is FAILED in memory, and in its row unless the saves fail. -/
lemma execute_not_reached (hissued : ScanState.Issued s) (hqueued : s.job.status = .queued)
    (hsaved : env.fault s.job.jobId .saveRunning = none)
    (hreached : ¬OutcomeReached env late.stages source s) :
    (Returns (execute env late.stages source) s ↔
        env.fault s.job.jobId .saveFailed = none ∧ FinishClean env s.job.jobId) ∧
      StoredAs (final (execute env late.stages source) s).host s.job.jobId [.running, .failed] ∧
      (FinishClean env s.job.jobId →
        StoredAs (final (execute env late.stages source) s).host s.job.jobId [.failed]) := by
  obtain ⟨e, u, hattempt, hid, hstatus, stored, hrow, hsid, hstored⟩ :=
    attempt_of_not_reached hissued hreached
  obtain ⟨hreturns, hfinal⟩ := @execute_via_guarded env source s late.stages hqueued hsaved
  have hguarded : guarded env late.stages source s.job (running s) = fail env e u := by
    rw [guarded, tryCatch_apply, hattempt]
  rw [fail_of_running hstatus, hid] at hguarded
  set failed : ScanJob := { u.job.addError e.text with status := .failed } with hfailed
  have hfid : failed.jobId = s.job.jobId := hid
  rw [List.mem_singleton] at hstored
  rw [hreturns, hfinal]
  cases hfault : env.fault s.job.jobId .saveFailed with
  | none =>
      simp only [hfault] at hguarded
      have hrow' : StoredAs (u.host.saved failed) failed.jobId [.running, .failed] :=
        ⟨failed, Host.saved_jobs_self _ _, rfl, by simp [hfailed]⟩
      obtain ⟨hfinish, hrows⟩ := @finish_of_failed env failed _ rfl hrow'
      rw [hfid] at hfinish hrows
      rw [final_of_ok hguarded, hfinish]
      exact ⟨⟨fun h => ⟨rfl, h.2⟩, fun h => ⟨returns_of_ok hguarded, h.2⟩⟩, hrows⟩
  | some e' =>
      simp only [hfault] at hguarded
      have hrow' : StoredAs u.host failed.jobId [.running, .failed] :=
        ⟨stored, hfid ▸ hrow, hsid.trans hfid.symm, by simp [hstored]⟩
      obtain ⟨hfinish, hrows⟩ := @finish_of_failed env failed _ rfl hrow'
      rw [hfid] at hfinish hrows
      rw [final_of_error hguarded, hfinish]
      have hraises : ¬Returns (guarded env late.stages source s.job) (running s) :=
        not_returns_iff.2 ⟨_, _, hguarded⟩
      exact ⟨⟨fun h => absurd h.1 hraises, fun h => by simp at h⟩, hrows⟩

/-! ## The rows of the other jobs -/

/-- Of the rows that were there before, only that of the job itself may have changed. -/
structure OthersFrame (s t : ScanState) : Prop where
  jobId : t.job.jobId = s.job.jobId
  nextJobId : s.host.nextJobId ≤ t.host.nextJobId
  rows : ∀ id < s.host.nextJobId, id ≠ s.job.jobId → t.host.jobs id = s.host.jobs id

/-- `OthersFrame`, for a job whose id was handed out. -/
def KeepsOthers (s t : ScanState) : Prop := ScanState.Issued s → OthersFrame s t

namespace KeepsOthers

lemma refl (s : ScanState) : KeepsOthers s s := fun _ => ⟨rfl, Nat.le_refl _, fun _ _ _ => rfl⟩

lemma trans (s t u : ScanState) (hst : KeepsOthers s t) (htu : KeepsOthers t u) :
    KeepsOthers s u := by
  intro hs
  have h₁ := hst hs
  have ht : ScanState.Issued t := by
    unfold ScanState.Issued
    rw [h₁.jobId]
    exact Nat.lt_of_lt_of_le hs h₁.nextJobId
  have h₂ := htu ht
  exact ⟨h₂.jobId.trans h₁.jobId, Nat.le_trans h₁.nextJobId h₂.nextJobId, fun id hid hne =>
    (h₂.rows id (Nat.lt_of_lt_of_le hid h₁.nextJobId) (h₁.jobId ▸ hne)).trans
      (h₁.rows id hid hne)⟩

/-- A change of the job in memory that keeps its id. -/
lemma updateJob {f : ScanJob → ScanJob} (hf : ∀ job, (f job).jobId = job.jobId) :
    Moves KeepsOthers (AVBox.updateJob f) :=
  fun s _ => ⟨hf s.job, Nat.le_refl _, fun _ _ _ => rfl⟩

lemma transition (fault : Option Exc) (target : JobStatus) :
    Moves KeepsOthers (JobService.transition fault target) := by
  intro s hs
  by_cases hmem : target ∈ transitions s.job.status
  · have hrun := @JobService.transition_of_mem fault target s hmem
    cases fault with
    | none =>
        rw [final_of_ok hrun]
        exact ⟨rfl, Nat.le_refl _, fun id _ hne => Host.saved_jobs_of_ne _ _ hne⟩
    | some e =>
        rw [final_of_error hrun]
        exact ⟨rfl, Nat.le_refl _, fun _ _ _ => rfl⟩
  · rw [final_of_error (JobService.transition_of_not_mem hmem)]
    exact refl s hs

lemma admission (content : Bytes) (job : ScanJob) :
    Moves KeepsOthers (onHost (ScanService.admission env content job)) := by
  refine Moves.zoom fun s _ => ?_
  have hsame := PreservationService.admitSource_moves (env.admitFault job.jobId) content
    job.inputArtifact job.normalizedVerdict s.host
  exact ⟨rfl, Nat.le_of_eq hsame.2.2.1.symm, fun id _ _ => congrFun hsame.1 id⟩

end KeepsOthers

lemma preserve_others (content : Bytes) : Moves KeepsOthers (preserve env content) := by
  have htrans := KeepsOthers.trans
  refine Moves.bind htrans (Moves.get KeepsOthers.refl) fun s => Moves.ite ?_ ?_
  · refine Moves.bind htrans (KeepsOthers.admission content _) fun path => ?_
    exact Moves.bind htrans (KeepsOthers.updateJob fun _ => rfl) fun _ =>
      KeepsOthers.transition _ _
  · exact Moves.bind htrans (KeepsOthers.updateJob fun _ => rfl) fun _ =>
      KeepsOthers.transition _ _

lemma attempt_others (requested : List String) (original : ℕ × Digest 64) :
    Moves KeepsOthers (attempt env late.stages requested source original) := by
  have htrans := KeepsOthers.trans
  refine Moves.bind htrans (fun s hs => ?_) fun _ => ?_
  · have hframe : StageFrame env.sha256 s
        (final (analyze env late.stages requested source) s) := analyze_frame hs
    exact ⟨hframe.jobId, hframe.nextJobId, fun id hid _ => hframe.rows id hid⟩
  · refine Moves.bind htrans (fun s => ?_) preserve_others
    rw [checkSource_state]
    exact KeepsOthers.refl s

/-- A whole run leaves the rows of the other jobs alone, however it ends. -/
lemma execute_others : Moves KeepsOthers (execute env late.stages source) := by
  have htrans := KeepsOthers.trans
  have hrefl := KeepsOthers.refl
  refine Moves.bind htrans (Moves.get hrefl) fun s => Moves.ite (Moves.throw hrefl _) ?_
  refine Moves.bind htrans (KeepsOthers.transition _ _) fun _ => ?_
  refine Moves.tryFinally htrans (Moves.tryCatch htrans (attempt_others _ _) fun e => ?_) ?_
  · refine Moves.bind htrans (Moves.get hrefl) fun t => ?_
    exact Moves.bind htrans (KeepsOthers.updateJob fun _ => rfl) fun _ =>
      KeepsOthers.transition _ _
  · intro t
    obtain ⟨hjob, -, hclean, hunclean⟩ := @finish_row env t
    by_cases hcase : FinishClean env t.job.jobId
    · refine fun _ => ⟨by rw [hjob], Nat.le_of_eq (by rw [hclean hcase]; rfl), ?_⟩
      intro id _ hne
      rw [hclean hcase, Host.saved_jobs_of_ne _ _ hne]
    · refine fun _ => ⟨by rw [hjob], Nat.le_of_eq (by rw [hunclean hcase]), ?_⟩
      intro id _ _
      rw [hunclean hcase]

end ScanService

end AVBox
