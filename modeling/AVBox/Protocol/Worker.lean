import AVBox.Application.Outcome

/-!
# The worker of the submission service

`RABService._worker` of `protocol/service.py`: a loop that takes queued jobs, runs them and
removes their uploads.  A job whose run raises is reloaded and turned FAILED by the worker itself,
which raises in turn when the stored job has its outcome already.

`worker_survives_iff` says for which jobs the worker goes on to the next one with the stored job
in a terminal status.  Everything that may fail is an outcome of the environment, as it is in
`ScanEnv`.
-/

namespace AVBox

open Program

namespace RABService

/-! ## The loop -/

/-- The calls the worker makes for an item, and what the uploads hold. -/
structure WorkerEnv where
  scan : ScanEnv
  late : ScanService.LateOutcomes scan.sha256
  upload : JobId → Bytes
  /-- `jobs.get` after `execute_queued` has returned. -/
  getCompleted : JobId → Option Exc
  /-- `jobs.get` in the `except` clause. -/
  getCurrent : JobId → Option Exc
  /-- `jobs.save` in the `except` clause. -/
  saveCurrent : JobId → Option Exc
  /-- `_remove_upload`. -/
  removeUpload : JobId → Option Exc

structure WorkerState where
  host : Host
  /-- Whether `<upload_root>/<job id>/object` is there. -/
  uploads : JobId → Bool
  /-- The items `task_done` was called for; `none` is the sentinel. -/
  tasksDone : List (Option JobId)

/-- `jobs.get(job_id)`. -/
def getJob (fault : Option Exc) (id : JobId) : EStateM Exc Host (Option ScanJob) := do
  raiseIf fault
  return (← get).jobs id

/-- What the `except` clause makes of the job it read. -/
def markFailed (exc : Exc) (current : ScanJob) : Except Exc ScanJob :=
  let current := current.addError s!"ANALYSIS_FAILED: {exc.text}"
  if current.status ≠ .failed then current.transition .failed else .ok current

/-- The `except` clause: the stored job, or the one in memory if there is none, becomes FAILED. -/
def handleFailure (env : WorkerEnv) (exc : Exc) : EStateM Exc ScanState Unit := do
  let job := (← get).job
  let stored ← onHost (getJob (env.getCurrent job.jobId) job.jobId)
  let current ← lift (markFailed exc (stored.getD job))
  onHost (JobService.save (env.saveCurrent job.jobId) current)

/-- The `try` statement of the loop body, on the job of the item. -/
def runItem (env : WorkerEnv) : EStateM Exc ScanState Unit := do
  let id := (← get).job.jobId
  tryCatch (do
      ScanService.execute env.scan env.late.stages (env.upload id)
      let _ ← onHost (getJob (env.getCompleted id) id)
      return ()) (handleFailure env)

/-- `_remove_upload` and `task_done`, in the `finally` clause. -/
def closeItem (env : WorkerEnv) (id : JobId) : EStateM Exc WorkerState Unit := do
  raiseIf (env.removeUpload id)
  modify fun w =>
    { w with
      uploads := Function.update w.uploads id false
      tasksDone := w.tasksDone ++ [some id] }

/-- One item that is a job. -/
def serve (env : WorkerEnv) (job : ScanJob) : EStateM Exc WorkerState Unit :=
  tryFinally
    (zoom (fun w => ⟨job, w.host⟩) (fun (s : ScanState) w => { w with host := s.host })
      (runItem env))
    (closeItem env job.jobId)

/-- How the loop is left, when no exception leaves it. -/
inductive WorkerEnd
  /-- The sentinel was taken. -/
  | stopped
  /-- The queue is empty and `queue.get` waits. -/
  | waiting
  deriving DecidableEq, Repr

/-- `_worker`, on the items in the order in which it takes them. -/
def worker (env : WorkerEnv) : List (Option ScanJob) → EStateM Exc WorkerState WorkerEnd
  | [] => pure .waiting
  | none :: _ => do
      modify fun w => { w with tasksDone := w.tasksDone ++ [none] }
      return .stopped
  | some job :: items => do
      serve env job
      worker env items

/-! ## When one item is served -/

/-- The `except` clause of the worker can do its work. -/
def HandlerWorks (env : WorkerEnv) (id : JobId) : Prop :=
  env.getCurrent id = none ∧ env.saveCurrent id = none

/-- The outcome of the job is reached, its transition to RUNNING having been saved. -/
def Reaches (env : WorkerEnv) (job : ScanJob) (host : Host) : Prop :=
  env.scan.fault job.jobId .saveRunning = none ∧
    ScanService.OutcomeReached env.scan env.late.stages (env.upload job.jobId) ⟨job, host⟩

/-- The condition on the calls made for one job. -/
structure Survives (env : WorkerEnv) (job : ScanJob) (host : Host) : Prop where
  removed : env.removeUpload job.jobId = none
  /-- Once the outcome is stored, nothing that follows fails. -/
  stored : Reaches env job host → env.scan.fault job.jobId .saveOutcome = none →
    ScanService.FinishClean env.scan job.jobId ∧ env.getCompleted job.jobId = none
  /-- When the outcome cannot be stored, the `finally` clause must not store it either. -/
  notStored : Reaches env job host → env.scan.fault job.jobId .saveOutcome ≠ none →
    ¬ScanService.FinishClean env.scan job.jobId ∧ HandlerWorks env job.jobId
  /-- A job that fails is stored as FAILED by the run, or else by the worker. -/
  failed : ¬Reaches env job host →
    (env.scan.fault job.jobId .saveRunning = none ∧
      env.scan.fault job.jobId .saveFailed = none ∧
      ScanService.FinishClean env.scan job.jobId ∧ env.getCompleted job.jobId = none) ∨
    HandlerWorks env job.jobId

section Item

open ScanService

variable {env : WorkerEnv} {job : ScanJob} {host : Host} {s t : ScanState} {id : JobId} {e : Exc}

/-- A job that has no outcome yet. -/
def undecided : List JobStatus := [.queued, .running, .failed]

lemma markFailed_of_outcome {stored : ScanJob} (h : stored.status ∈ outcomes) :
    ∃ e', markFailed e stored = .error e' := by
  have hmem : JobStatus.failed ∉ transitions stored.status := by
    rcases List.mem_pair.1 h with h | h <;> simp [h, transitions]
  have hne : stored.status ≠ .failed := by
    rcases List.mem_pair.1 h with h | h <;> simp [h]
  exact ⟨_, (if_pos hne).trans (ScanJob.transition_of_not_mem hmem)⟩

lemma markFailed_of_undecided {stored : ScanJob} (h : stored.status ∈ undecided) :
    ∃ current, markFailed e stored = .ok current ∧ current.jobId = stored.jobId ∧
      current.status = .failed := by
  by_cases hfailed : stored.status = .failed
  · exact ⟨_, if_neg (not_not.2 hfailed), rfl, hfailed⟩
  · have hmem : JobStatus.failed ∈ transitions stored.status := by
      simp only [undecided, List.mem_cons, List.not_mem_nil, or_false, hfailed] at h
      rcases h with h | h <;> simp [h, transitions]
    exact ⟨_, (if_pos hfailed).trans (ScanJob.transition_of_mem hmem), rfl, rfl⟩

/-- The `except` clause, once the job it read has been found. -/
lemma handleFailure_apply {stored : ScanJob} (hrow : t.host.jobs t.job.jobId = some stored) :
    handleFailure env e t =
      match env.getCurrent t.job.jobId, markFailed e stored, env.saveCurrent t.job.jobId with
      | some e', _, _ => .error e' t
      | none, .error e', _ => .error e' t
      | none, .ok _, some e' => .error e' t
      | none, .ok current, none => .ok () { t with host := t.host.saved current } := by
  unfold handleFailure
  rw [get_bind_apply]
  cases hget : env.getCurrent t.job.jobId with
  | some e' => rfl
  | none =>
      have hread : onHost (getJob none t.job.jobId) t = .ok (some stored) t :=
        onHost_of_ok (by rw [← hrow]; rfl)
      rw [bind_of_ok hread]
      simp only [Option.getD_some]
      cases hmark : markFailed e stored with
      | error e' => rfl
      | ok current => cases hsave : env.saveCurrent t.job.jobId <;> rfl

/-- A stored outcome cannot become FAILED: the worker raises. -/
lemma handleFailure_of_outcome (hrow : StoredAs t.host t.job.jobId outcomes) :
    ¬Returns (handleFailure env e) t := by
  obtain ⟨stored, hstored, -, hstatus⟩ := hrow
  obtain ⟨e', hmark⟩ := @markFailed_of_outcome e stored hstatus
  have hrun := @handleFailure_apply env t e stored hstored
  rw [hmark] at hrun
  cases hget : env.getCurrent t.job.jobId with
  | none => exact not_returns_iff.2 ⟨e', t, by rw [hrun, hget]⟩
  | some e'' => exact not_returns_iff.2 ⟨e'', t, by rw [hrun, hget]⟩

/-- Any other stored job is FAILED once the worker has read and saved it. -/
lemma handleFailure_of_undecided (hrow : StoredAs t.host t.job.jobId undecided) :
    (Returns (handleFailure env e) t ↔ HandlerWorks env t.job.jobId) ∧
      (HandlerWorks env t.job.jobId →
        StoredAs (final (handleFailure env e) t).host t.job.jobId [.failed]) := by
  obtain ⟨stored, hstored, hid, hstatus⟩ := hrow
  obtain ⟨current, hmark, hcurrent, hfailed⟩ := @markFailed_of_undecided e stored hstatus
  have hrun := @handleFailure_apply env t e stored hstored
  rw [hmark] at hrun
  unfold HandlerWorks
  cases hget : env.getCurrent t.job.jobId with
  | some e' => simp [returns_iff, hrun, hget]
  | none =>
      cases hsave : env.saveCurrent t.job.jobId with
      | some e' => simp [returns_iff, hrun, hget, hsave]
      | none =>
          rw [hget, hsave] at hrun
          refine ⟨by simp [returns_iff, hrun], fun _ => ?_⟩
          rw [final_of_ok hrun]
          refine ⟨current, ?_, hcurrent.trans hid, by simp [hfailed]⟩
          rw [← hid, ← hcurrent]
          exact Host.saved_jobs_self _ _

/-- The run of `execute_queued` for an item. -/
abbrev runJob (env : WorkerEnv) (id : JobId) : EStateM Exc ScanState Unit :=
  execute env.scan env.late.stages (env.upload id)

/-- The run of the item ends with `execute_queued` and the reading of the job, or in the `except`
clause in the state that `execute_queued` left. -/
lemma runItem_apply (s : ScanState) :
    (Returns (runJob env s.job.jobId) s ∧ env.getCompleted s.job.jobId = none ∧
        runItem env s = .ok () (final (runJob env s.job.jobId) s)) ∨
      (¬(Returns (runJob env s.job.jobId) s ∧ env.getCompleted s.job.jobId = none) ∧
        ∃ e, runItem env s = handleFailure env e (final (runJob env s.job.jobId) s)) := by
  unfold runItem
  rw [get_bind_apply]
  simp only [tryCatch_apply]
  cases hrun : runJob env s.job.jobId s with
  | error e t =>
      refine .inr ⟨fun h => not_returns_iff.2 ⟨e, t, hrun⟩ h.1, e, ?_⟩
      rw [final_of_error hrun, bind_of_error hrun]
  | ok a t =>
      rw [final_of_ok hrun, bind_of_ok hrun]
      cases hget : env.getCompleted s.job.jobId with
      | none => exact .inl ⟨returns_of_ok hrun, rfl, rfl⟩
      | some e => exact .inr ⟨fun h => by simp at h, e, rfl⟩

lemma runItem_of_outcome (hid : (final (runJob env s.job.jobId) s).job.jobId = s.job.jobId)
    (hrow : StoredAs (final (runJob env s.job.jobId) s).host s.job.jobId outcomes) :
    (Returns (runItem env) s ↔
        Returns (runJob env s.job.jobId) s ∧ env.getCompleted s.job.jobId = none) ∧
      (Returns (runItem env) s → final (runItem env) s = final (runJob env s.job.jobId) s) := by
  rcases @runItem_apply env s with ⟨hreturns, hget, hrun⟩ | ⟨hnot, e, hrun⟩
  · exact ⟨⟨fun _ => ⟨hreturns, hget⟩, fun _ => returns_of_ok hrun⟩, fun _ => final_of_ok hrun⟩
  · have hrow' : StoredAs (final (runJob env s.job.jobId) s).host
        (final (runJob env s.job.jobId) s).job.jobId outcomes := by rwa [hid]
    have hraises : ¬Returns (runItem env) s := by
      rw [Returns, raised, hrun]
      exact handleFailure_of_outcome hrow'
    exact ⟨⟨fun h => absurd h hraises, fun h => absurd h hnot⟩, fun h => absurd h hraises⟩

lemma runItem_of_undecided (hid : (final (runJob env s.job.jobId) s).job.jobId = s.job.jobId)
    (hrow : StoredAs (final (runJob env s.job.jobId) s).host s.job.jobId undecided)
    (hfailed : Returns (runJob env s.job.jobId) s →
      StoredAs (final (runJob env s.job.jobId) s).host s.job.jobId [.failed]) :
    (Returns (runItem env) s ↔
        (Returns (runJob env s.job.jobId) s ∧ env.getCompleted s.job.jobId = none) ∨
          HandlerWorks env s.job.jobId) ∧
      (Returns (runItem env) s →
        StoredAs (final (runItem env) s).host s.job.jobId [.failed]) := by
  rcases @runItem_apply env s with ⟨hreturns, hget, hrun⟩ | ⟨hnot, e, hrun⟩
  · rw [final_of_ok hrun]
    exact ⟨⟨fun _ => .inl ⟨hreturns, hget⟩, fun _ => returns_of_ok hrun⟩, fun _ => hfailed hreturns⟩
  · have hrow' : StoredAs (final (runJob env s.job.jobId) s).host
        (final (runJob env s.job.jobId) s).job.jobId undecided := by rwa [hid]
    obtain ⟨hhandler, hstored⟩ := @handleFailure_of_undecided env _ e hrow'
    rw [hid] at hhandler hstored
    have hiff : Returns (runItem env) s ↔ HandlerWorks env s.job.jobId := by
      rw [Returns, raised, hrun]
      exact hhandler
    have hfinal : final (runItem env) s =
        final (handleFailure env e) (final (runJob env s.job.jobId) s) := by
      rw [final, hrun]
      rfl
    rw [hfinal]
    exact ⟨⟨fun h => .inr (hiff.1 h), fun h => hiff.2 (h.resolve_left hnot)⟩,
      fun h => hstored (hiff.1 h)⟩

/-- A job that is queued in memory and in its row. -/
structure Queued (host : Host) (job : ScanJob) : Prop where
  status : job.status = .queued
  row : host.jobs job.jobId = some job
  issued : ScanState.Issued ⟨job, host⟩

/-- The statuses in which a job is over. -/
def terminalStatuses : List JobStatus := [.complete, .quarantined, .failed]

lemma storedAs_mono {statuses statuses' : List JobStatus} (h : StoredAs host id statuses)
    (hsub : ∀ status ∈ statuses, status ∈ statuses') : StoredAs host id statuses' := by
  obtain ⟨stored, hrow, hid, hstatus⟩ := h
  exact ⟨stored, hrow, hid, hsub _ hstatus⟩

/-- The worker gets through the run of a queued job exactly under the condition of `Survives`, and
then the stored job is over. -/
lemma runItem_returns (hqueued : Queued host job) (hremoved : env.removeUpload job.jobId = none) :
    (Returns (runItem env) ⟨job, host⟩ ↔ Survives env job host) ∧
      (Returns (runItem env) ⟨job, host⟩ →
        StoredAs (final (runItem env) ⟨job, host⟩).host job.jobId terminalStatuses) := by
  set s : ScanState := ⟨job, host⟩ with hs
  have hid : (final (runJob env s.job.jobId) s).job.jobId = s.job.jobId :=
    (execute_others s hqueued.issued).jobId
  by_cases hsaved : env.scan.fault job.jobId .saveRunning = none
  · by_cases hreached : OutcomeReached env.scan env.late.stages (env.upload job.jobId) s
    · have hreaches : Reaches env job host := ⟨hsaved, hreached⟩
      by_cases houtcome : env.scan.fault job.jobId .saveOutcome = none
      · -- The outcome is stored: from here on nothing may fail.
        obtain ⟨hreturns, hrow⟩ :=
          execute_reached_stored hqueued.issued hqueued.status hsaved hreached houtcome
        obtain ⟨hiff, hfinal⟩ := @runItem_of_outcome env s hid hrow
        rw [hiff, hreturns]
        refine ⟨⟨fun h => ⟨hremoved, fun _ _ => h, fun _ hne => absurd houtcome hne,
          fun hnot => absurd hreaches hnot⟩, fun h => h.stored hreaches houtcome⟩, fun h => ?_⟩
        rw [hfinal (hiff.2 ⟨hreturns.2 h.1, h.2⟩)]
        exact storedAs_mono hrow (by decide)
      · obtain ⟨hraises, hrow, hdecided⟩ :=
          execute_reached_not_stored hqueued.issued hqueued.status hsaved hreached houtcome
        by_cases hclean : FinishClean env.scan job.jobId
        · -- The `finally` clause stores the outcome after all, and the exception meets it.
          obtain ⟨hiff, -⟩ := @runItem_of_outcome env s hid (hdecided.2 hclean)
          have hnot : ¬Returns (runItem env) s := fun h => hraises (hiff.1 h).1
          exact ⟨⟨fun h => absurd h hnot,
            fun h => absurd hclean (h.notStored hreaches houtcome).1⟩, fun h => absurd h hnot⟩
        · have hundecided : StoredAs (final (runJob env s.job.jobId) s).host s.job.jobId
              undecided := by
            obtain ⟨stored, hstored, hsid, hstatus⟩ := hrow
            rcases List.mem_cons.1 hstatus with hrunning | houtcomes
            · exact ⟨stored, hstored, hsid, by simp [undecided, hrunning]⟩
            · exact absurd (hdecided.1 ⟨stored, hstored, hsid, houtcomes⟩) hclean
          obtain ⟨hiff, hstored⟩ :=
            @runItem_of_undecided env s hid hundecided fun h => absurd h hraises
          refine ⟨⟨fun h => ⟨hremoved, fun _ hsave => absurd hsave houtcome,
            fun _ _ => ⟨hclean, (hiff.1 h).resolve_left fun h' => hraises h'.1⟩,
            fun hnot => absurd hreaches hnot⟩,
            fun h => hiff.2 (.inr (h.notStored hreaches houtcome).2)⟩, fun h => ?_⟩
          exact storedAs_mono (hstored h) (by decide)
    · have hnot : ¬Reaches env job host := fun h => hreached h.2
      obtain ⟨hreturns, hrow, hfailed⟩ :=
        execute_not_reached hqueued.issued hqueued.status hsaved hreached
      obtain ⟨hiff, hstored⟩ := @runItem_of_undecided env s hid
        (storedAs_mono hrow (by decide)) fun h => hfailed (hreturns.1 h).2
      refine ⟨⟨fun h => ⟨hremoved, fun h' => absurd h' hnot, fun h' => absurd h' hnot,
        fun _ => ?_⟩, fun h => hiff.2 ?_⟩, fun h => storedAs_mono (hstored h) (by decide)⟩
      · rcases hiff.1 h with ⟨hrun, hget⟩ | hworks
        · exact .inl ⟨hsaved, (hreturns.1 hrun).1, (hreturns.1 hrun).2, hget⟩
        · exact .inr hworks
      · rcases h.failed hnot with ⟨-, hfail, hclean, hget⟩ | hworks
        · exact .inl ⟨hreturns.2 ⟨hfail, hclean⟩, hget⟩
        · exact .inr hworks
  · have hnot : ¬Reaches env job host := fun h => hsaved h.1
    obtain ⟨e, hrun⟩ := @execute_of_not_saved env.scan (env.upload job.jobId) s env.late.stages
      hqueued.status hsaved
    have hraises : ¬Returns (runJob env s.job.jobId) s := not_returns_iff.2 ⟨_, _, hrun⟩
    have hrow : StoredAs (final (runJob env s.job.jobId) s).host s.job.jobId undecided := by
      rw [final_of_error hrun]
      exact ⟨job, hqueued.row, rfl, by simp [undecided, hqueued.status]⟩
    obtain ⟨hiff, hstored⟩ := @runItem_of_undecided env s hid hrow fun h => absurd h hraises
    refine ⟨⟨fun h => ⟨hremoved, fun h' => absurd h' hnot, fun h' => absurd h' hnot,
      fun _ => .inr ((hiff.1 h).resolve_left fun h' => hraises h'.1)⟩, fun h => hiff.2 (.inr ?_)⟩,
      fun h => storedAs_mono (hstored h) (by decide)⟩
    exact (h.failed hnot).resolve_left fun h' => hsaved h'.1

/-! ## The run of the worker -/

lemma markFailed_jobId {stored current : ScanJob} (h : markFailed e stored = .ok current) :
    current.jobId = stored.jobId := by
  unfold markFailed at h
  simp only at h
  split at h
  · obtain ⟨-, rfl⟩ := ScanJob.transition_eq_ok.1 h
    rfl
  · obtain rfl := Except.ok.inj h
    rfl

/-- The `except` clause writes no row but that of the job it read. -/
lemma handleFailure_others {statuses : List JobStatus}
    (hrow : StoredAs t.host t.job.jobId statuses) :
    OthersFrame t (final (handleFailure env e) t) := by
  obtain ⟨stored, hstored, hid, -⟩ := hrow
  have hrun := @handleFailure_apply env t e stored hstored
  have hsame : OthersFrame t t := ⟨rfl, Nat.le_refl _, fun _ _ _ => rfl⟩
  cases hget : env.getCurrent t.job.jobId with
  | some e' =>
      rw [hget] at hrun
      rwa [final_of_error hrun]
  | none =>
      cases hmark : markFailed e stored with
      | error e' =>
          rw [hget, hmark] at hrun
          rwa [final_of_error hrun]
      | ok current =>
          cases hsave : env.saveCurrent t.job.jobId with
          | some e' =>
              rw [hget, hmark, hsave] at hrun
              rwa [final_of_error hrun]
          | none =>
              rw [hget, hmark, hsave] at hrun
              rw [final_of_ok hrun]
              have hcurrent : current.jobId = t.job.jobId := (markFailed_jobId hmark).trans hid
              exact ⟨rfl, Nat.le_refl _, fun id _ hne =>
                Host.saved_jobs_of_ne _ _ (hcurrent ▸ hne)⟩

/-- Whatever happens in its run, the row of a queued job keeps a status. -/
lemma runJob_row (hqueued : Queued host job) :
    ∃ statuses, StoredAs (final (runJob env job.jobId) ⟨job, host⟩).host job.jobId statuses := by
  by_cases hsaved : env.scan.fault job.jobId .saveRunning = none
  · by_cases hreached : OutcomeReached env.scan env.late.stages (env.upload job.jobId) ⟨job, host⟩
    · by_cases houtcome : env.scan.fault job.jobId .saveOutcome = none
      · exact ⟨_, (execute_reached_stored hqueued.issued hqueued.status hsaved hreached
          houtcome).2⟩
      · exact ⟨_, (execute_reached_not_stored hqueued.issued hqueued.status hsaved hreached
          houtcome).2.1⟩
    · exact ⟨_, (execute_not_reached hqueued.issued hqueued.status hsaved hreached).2.1⟩
  · obtain ⟨e, hrun⟩ := @execute_of_not_saved env.scan (env.upload job.jobId) ⟨job, host⟩
      env.late.stages hqueued.status hsaved
    rw [final_of_error hrun]
    exact ⟨[.queued], job, hqueued.row, rfl, by simp [hqueued.status]⟩

lemma runItem_others (hqueued : Queued host job) :
    OthersFrame ⟨job, host⟩ (final (runItem env) ⟨job, host⟩) := by
  have hjob : OthersFrame ⟨job, host⟩ (final (runJob env job.jobId) ⟨job, host⟩) :=
    execute_others _ hqueued.issued
  rcases @runItem_apply env ⟨job, host⟩ with ⟨-, -, hrun⟩ | ⟨-, e, hrun⟩
  · rwa [final_of_ok hrun]
  · obtain ⟨statuses, hrow⟩ := @runJob_row env job host hqueued
    have hrow' : StoredAs (final (runJob env job.jobId) ⟨job, host⟩).host
        (final (runJob env job.jobId) ⟨job, host⟩).job.jobId statuses := by rwa [hjob.jobId]
    have hhandler := @handleFailure_others env _ e statuses hrow'
    have hfinal : final (runItem env) ⟨job, host⟩ =
        final (handleFailure env e) (final (runJob env job.jobId) ⟨job, host⟩) := by
      rw [final, hrun]
      rfl
    rw [hfinal]
    exact KeepsOthers.trans _ _ _ (fun _ => hjob) (fun _ => hhandler) hqueued.issued

/-- What serving an item changes, its own job apart. -/
structure ServedFrame (ids : List JobId) (w w' : WorkerState) : Prop where
  nextJobId : w.host.nextJobId ≤ w'.host.nextJobId
  rows : ∀ id < w.host.nextJobId, id ∉ ids → w'.host.jobs id = w.host.jobs id
  uploads : ∀ id ∉ ids, w'.uploads id = w.uploads id

/-- An item has been dealt with: its upload is gone and its stored job is over. -/
def Done (w : WorkerState) (id : JobId) : Prop :=
  w.uploads id = false ∧ StoredAs w.host id terminalStatuses

lemma Done.frame {ids : List JobId} {w w' : WorkerState} (h : Done w id)
    (hframe : ServedFrame ids w w') (hissued : id < w.host.nextJobId) (hid : id ∉ ids) :
    Done w' id := by
  obtain ⟨hupload, stored, hrow, hsid, hstatus⟩ := h
  exact ⟨(hframe.uploads id hid).trans hupload, stored, (hframe.rows id hissued hid).trans hrow,
    hsid, hstatus⟩

lemma Queued.frame {ids : List JobId} {w w' : WorkerState} (h : Queued w.host job)
    (hframe : ServedFrame ids w w') (hid : job.jobId ∉ ids) : Queued w'.host job where
  status := h.status
  row := (hframe.rows _ h.issued hid).trans h.row
  issued := Nat.lt_of_lt_of_le h.issued hframe.nextJobId

lemma serve_apply (env : WorkerEnv) (job : ScanJob) (w : WorkerState) :
    (Returns (serve env job) w ↔
        Returns (runItem env) ⟨job, w.host⟩ ∧ env.removeUpload job.jobId = none) ∧
      (env.removeUpload job.jobId = none → final (serve env job) w =
        { host := (final (runItem env) ⟨job, w.host⟩).host
          uploads := Function.update w.uploads job.jobId false
          tasksDone := w.tasksDone ++ [some job.jobId] }) := by
  unfold serve
  rw [returns_tryFinally, final_tryFinally]
  have hzoom : final (zoom (fun w : WorkerState => (⟨job, w.host⟩ : ScanState))
      (fun (s : ScanState) w => { w with host := s.host }) (runItem env)) w =
      { w with host := (final (runItem env) ⟨job, w.host⟩).host } := by
    unfold final zoom
    cases runItem env ⟨job, w.host⟩ <;> rfl
  have hreturns : Returns (zoom (fun w : WorkerState => (⟨job, w.host⟩ : ScanState))
      (fun (s : ScanState) w => { w with host := s.host }) (runItem env)) w ↔
      Returns (runItem env) ⟨job, w.host⟩ := by
    unfold Returns raised zoom
    cases runItem env ⟨job, w.host⟩ <;> simp
  rw [hzoom, hreturns]
  unfold closeItem
  cases hremove : env.removeUpload job.jobId <;> simp [returns_iff, bind_apply, final]

/-- Serving a queued job: the worker goes on exactly under the condition of `Survives`, with the
item done and everything else as it was. -/
lemma serve_returns {w : WorkerState} (hqueued : Queued w.host job) :
    (Returns (serve env job) w ↔ Survives env job w.host) ∧
      (Returns (serve env job) w →
        (final (serve env job) w).tasksDone = w.tasksDone ++ [some job.jobId] ∧
          Done (final (serve env job) w) job.jobId ∧
          ServedFrame [job.jobId] w (final (serve env job) w)) := by
  obtain ⟨hreturns, hfinal⟩ := serve_apply env job w
  constructor
  · rw [hreturns]
    exact ⟨fun h => ((runItem_returns hqueued h.2).1).1 h.1,
      fun h => ⟨((runItem_returns hqueued h.removed).1).2 h, h.removed⟩⟩
  · intro h
    obtain ⟨hrun, hremoved⟩ := hreturns.1 h
    have hothers := @runItem_others env job w.host hqueued
    rw [hfinal hremoved]
    refine ⟨rfl, ⟨Function.update_self .., (runItem_returns hqueued hremoved).2 hrun⟩,
      hothers.nextJobId, fun id hid hne => hothers.rows id hid (by simpa using hne), ?_⟩
    intro id hne
    exact Function.update_of_ne (by simpa using hne) ..

/-- The items the loop takes from the queue: those up to the first sentinel. -/
def dequeued : List (Option ScanJob) → List (Option ScanJob)
  | [] => []
  | none :: _ => [none]
  | some job :: items => some job :: dequeued items

/-- Every job the loop takes meets the condition in the state in which it is taken. -/
def Healthy (env : WorkerEnv) : List (Option ScanJob) → WorkerState → Prop
  | [], _ => True
  | none :: _, _ => True
  | some job :: items, w => Survives env job w.host ∧ Healthy env items (final (serve env job) w)

/-- The ids of the queued jobs. -/
def itemIds (items : List (Option ScanJob)) : List JobId :=
  items.filterMap fun item => item.map (·.jobId)

/-- The run of the worker the service relies on: the loop is left at the sentinel or waits, and
each item that was taken is done. -/
structure ServesAll (env : WorkerEnv) (items : List (Option ScanJob)) (w w' : WorkerState)
    (ended : WorkerEnd) : Prop where
  run : worker env items w = .ok ended w'
  stopped : ended = .stopped ↔ none ∈ items
  tasksDone : w'.tasksDone = w.tasksDone ++ (dequeued items).map fun item => item.map (·.jobId)
  done : ∀ job, some job ∈ dequeued items → Done w' job.jobId

lemma mem_itemIds {items : List (Option ScanJob)} (h : some job ∈ items) :
    job.jobId ∈ itemIds items :=
  List.mem_filterMap.2 ⟨some job, h, rfl⟩

/-- The jobs behind the one that was served are still queued. -/
lemma queued_after_serve {items : List (Option ScanJob)} {w : WorkerState}
    (hqueued : ∀ job', some job' ∈ some job :: items → Queued w.host job')
    (hdistinct : (itemIds (some job :: items)).Nodup)
    (hframe : ServedFrame [job.jobId] w (final (serve env job) w)) :
    ∀ job', some job' ∈ items → Queued (final (serve env job) w).host job' := by
  intro job' hmem
  have hne : job'.jobId ∉ [job.jobId] := by
    rw [List.mem_singleton]
    intro heq
    have hin := mem_itemIds hmem
    rw [heq] at hin
    exact (List.nodup_cons.1 hdistinct).1 hin
  exact (hqueued job' (List.mem_cons_of_mem _ hmem)).frame hframe hne

/-- A worker that does not raise has met healthy items only. -/
lemma healthy_of_returns (items : List (Option ScanJob)) (w : WorkerState)
    (hqueued : ∀ job, some job ∈ items → Queued w.host job) (hdistinct : (itemIds items).Nodup)
    (hrun : Returns (worker env items) w) : Healthy env items w := by
  induction items generalizing w with
  | nil => trivial
  | cons item items ih =>
      cases item with
      | none => trivial
      | some job =>
          obtain ⟨⟨⟩, w₁, hserve, hrest⟩ := returns_bind.1 hrun
          obtain ⟨hsurvives, hserved⟩ := @serve_returns env job w (hqueued job List.mem_cons_self)
          obtain ⟨-, -, hframe⟩ := hserved (returns_of_ok hserve)
          rw [Healthy]
          refine ⟨hsurvives.1 (returns_of_ok hserve), ?_⟩
          refine ih _ (queued_after_serve hqueued hdistinct hframe)
            (List.nodup_cons.1 hdistinct).2 ?_
          rwa [final_of_ok hserve]

/-- Healthy items are all served, and nothing but their rows and uploads changes. -/
lemma servesAll_of_healthy (items : List (Option ScanJob)) (w : WorkerState)
    (hqueued : ∀ job, some job ∈ items → Queued w.host job) (hdistinct : (itemIds items).Nodup)
    (hhealthy : Healthy env items w) :
    ∃ w' ended, ServesAll env items w w' ended ∧ ServedFrame (itemIds items) w w' := by
  induction items generalizing w with
  | nil =>
      exact ⟨w, .waiting, ⟨rfl, by simp, by simp [dequeued], by simp [dequeued]⟩, Nat.le_refl _,
        fun _ _ _ => rfl, fun _ _ => rfl⟩
  | cons item items ih =>
      cases item with
      | none =>
          exact ⟨{ w with tasksDone := w.tasksDone ++ [none] }, .stopped,
            ⟨rfl, by simp, by simp [dequeued], by simp [dequeued]⟩, Nat.le_refl _,
            fun _ _ _ => rfl, fun _ _ => rfl⟩
      | some job =>
          obtain ⟨hsurvives, hserved⟩ := @serve_returns env job w (hqueued job List.mem_cons_self)
          have hserve := hsurvives.2 hhealthy.1
          obtain ⟨htasks, hdone, hframe⟩ := hserved hserve
          obtain ⟨w', ended, hall, hrest⟩ := ih (final (serve env job) w)
            (queued_after_serve hqueued hdistinct hframe) (List.nodup_cons.1 hdistinct).2
            hhealthy.2
          obtain ⟨⟨⟩, w₁, hok⟩ := returns_iff.1 hserve
          rw [final_of_ok hok] at htasks hdone hframe hall hrest
          have hnotin : job.jobId ∉ itemIds items := (List.nodup_cons.1 hdistinct).1
          have hissued : job.jobId < w₁.host.nextJobId :=
            Nat.lt_of_lt_of_le (hqueued job List.mem_cons_self).issued hframe.nextJobId
          refine ⟨w', ended, ⟨?_, by simpa using hall.stopped, ?_, ?_⟩, ?_, ?_, ?_⟩
          · rw [worker, bind_of_ok hok]
            exact hall.run
          · rw [hall.tasksDone, htasks, dequeued]
            simp
          · intro job' hmem
            rcases List.mem_cons.1 hmem with hfirst | hmem
            · rw [Option.some.inj hfirst]
              exact hdone.frame hrest hissued hnotin
            · exact hall.done job' hmem
          · exact Nat.le_trans hframe.nextJobId hrest.nextJobId
          · intro id hid hne
            obtain ⟨hfirst, hothers⟩ := not_or.1 (mt List.mem_cons.2 hne)
            rw [hrest.rows id (Nat.lt_of_lt_of_le hid hframe.nextJobId) hothers]
            exact hframe.rows id hid (by simpa using hfirst)
          · intro id hne
            obtain ⟨hfirst, hothers⟩ := not_or.1 (mt List.mem_cons.2 hne)
            rw [hrest.uploads id hothers]
            exact hframe.uploads id (by simpa using hfirst)

end Item

/-- For queued jobs that are all different, the worker survives and deals with every item it takes
exactly when each of them meets the condition of `Survives`. -/
theorem worker_survives_iff (env : WorkerEnv) (items : List (Option ScanJob)) (w : WorkerState)
    (hqueued : ∀ job, some job ∈ items → Queued w.host job) (hdistinct : (itemIds items).Nodup) :
    (∃ w' ended, ServesAll env items w w' ended) ↔ Healthy env items w := by
  constructor
  · rintro ⟨w', ended, hall⟩
    exact healthy_of_returns items w hqueued hdistinct (returns_of_ok hall.run)
  · intro hhealthy
    obtain ⟨w', ended, hall, -⟩ := servesAll_of_healthy items w hqueued hdistinct hhealthy
    exact ⟨w', ended, hall⟩

/-! ## One queued job -/

/-- No scanner is configured, nothing is attached and only `removeStaging` may fail. -/
def plainEnv (removeStaging : Option Exc) : WorkerEnv where
  scan :=
    { adapters := []
      genericAnalyzers := []
      analyze := fun _ _ => .error (.runtime "not configured")
      probe := fun _ _ => .error (.runtime "not configured")
      prepare := fun _ _ => none
      runPrepared := fun _ _ => .error (.runtime "not configured")
      cleanup := fun _ _ => none
      fault := fun _ site => if site = .removeStaging then removeStaging else none
      admitFault := fun _ _ => none
      sourceAfter := fun _ => .ok []
      sha256 := fun _ => Hashes.empty.sha256 }
  late := ⟨none, none⟩
  upload := fun _ => []
  getCompleted := fun _ => none
  getCurrent := fun _ => none
  saveCurrent := fun _ => none
  removeUpload := fun _ => none

/-- A job for the empty file, queued by a client. -/
def plainJob : ScanJob :=
  { ScanJob.new 0 "rab:client" ⟨.empty, 0, "submitted-object", none, "application/octet-stream",
      "rab:client"⟩ [] [] with status := .queued }

/-- The worker's state when only that job is in the table. -/
def plainState : WorkerState where
  host := ⟨fun id => if id = 0 then some plainJob else none, fun _ => none, fun _ => none,
    fun _ => false, 1, []⟩
  uploads := fun id => id = 0
  tasksDone := []

lemma plainState_queued : ∀ job, some job ∈ [some plainJob, none] →
    Queued plainState.host job := by
  intro job hmem
  simp only [List.mem_cons, Option.some.injEq, reduceCtorEq, List.not_mem_nil, or_false] at hmem
  subst hmem
  exact ⟨rfl, rfl, Nat.zero_lt_one⟩

/-- A job for which nothing fails is served, and the worker reaches the sentinel. -/
theorem plain_job_served :
    ∃ w' ended, ServesAll (plainEnv none) [some plainJob, none] plainState w' ended :=
  (worker_survives_iff (plainEnv none) [some plainJob, none] plainState plainState_queued
    (by decide)).2
    ⟨⟨rfl, fun _ _ => ⟨⟨rfl, rfl⟩, rfl⟩, fun _ h => absurd rfl h, fun _ => .inr ⟨rfl, rfl⟩⟩,
      trivial⟩

/-- When the staging directory of a job that is COMPLETE cannot be removed, the worker reloads the
job, may not turn it FAILED and raises: the sentinel behind it is never taken. -/
theorem worker_dies_on_complete_job :
    let env := plainEnv (some ⟨.osError, "PermissionError", "staging"⟩)
    raised (worker env [some plainJob, none]) plainState =
        some (.value "invalid job transition: COMPLETE -> FAILED") ∧
      ScanService.StoredAs (final (worker env [some plainJob, none]) plainState).host 0
        [.complete] ∧
      (final (worker env [some plainJob, none]) plainState).tasksDone = [some 0] ∧
      ¬∃ w' ended, ServesAll env [some plainJob, none] plainState w' ended := by
  intro env
  refine ⟨rfl, ⟨_, rfl, rfl, by decide⟩, rfl, ?_⟩
  rintro ⟨w', ended, hall⟩
  have hrun : raised (worker env [some plainJob, none]) plainState = none :=
    raised_of_ok hall.run
  have hraised : raised (worker env [some plainJob, none]) plainState =
      some (.value "invalid job transition: COMPLETE -> FAILED") := rfl
  rw [hraised] at hrun
  exact absurd hrun (by simp)

end RABService

end AVBox
