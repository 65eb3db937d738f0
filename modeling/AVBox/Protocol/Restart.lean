import AVBox.Application.Keys
import AVBox.Protocol.Shutdown

/-!
# Starting the service again

The construction of a `RABService` finds what an earlier process has left behind.
`reconcile_interrupted` fails the jobs of clients that were under way, and
`_clean_interrupted_uploads` removes their uploads, unless no job was under way.

`restart_over_iff` says which of the submitted jobs are over then.  A job that an earlier
construction has failed keeps its upload as long as no further job is interrupted, and files
`incoming-*` and directories without a row in `rab_jobs` always stay.
-/

namespace AVBox

open Program ScanService

/-- The rows of the table that are read out at once, in the order of the rows. -/
def JobService.list (fault : Option Exc) (rows : List JobId) :
    EStateM Exc Host (List ScanJob) := do
  raiseIf fault
  return rows.filterMap (← get).jobs

/-- What `reconcile_interrupted` writes into a job. -/
def interruptedByRestart : String := "ANALYSIS_FAILED: interrupted by service restart"

namespace RABService

/-- What a construction of the service meets: the rows of `jobs` in the order of each of its two
reads, and the calls of the database and of the file system. -/
structure RestartEnv where
  rows : List JobId
  rowsAgain : List JobId
  list : Option Exc
  save : JobId → Option Exc
  listAgain : Option Exc
  rabJob : JobId → Option Exc
  removeUpload : JobId → Option Exc

/-- A job of a client that was under way. -/
def interrupted (job : ScanJob) : Bool :=
  startsWith job.source "rab:" && job.status ∈ [.staged, .queued, .running]

/-- The loop of `reconcile_interrupted`, with the count so far. -/
def reconcileJobs (renv : RestartEnv) : List ScanJob → ℕ → EStateM Exc Host ℕ
  | [], count => pure count
  | job :: jobs, count =>
      if interrupted job then do
        let job ← lift ((job.addError interruptedByRestart).transition .failed)
        JobService.save (renv.save job.jobId) job
        reconcileJobs renv jobs (count + 1)
      else reconcileJobs renv jobs count

/-- `reconcile_interrupted`. -/
def reconcileInterrupted (renv : RestartEnv) : EStateM Exc Host ℕ := do
  let jobs ← JobService.list renv.list renv.rows
  reconcileJobs renv jobs 0

/-- A pass of `_clean_interrupted_uploads`. -/
def cleanUpload (env : ServiceEnv) (renv : RestartEnv) (job : ScanJob) :
    EStateM Exc Store Unit :=
  if interruptedByRestart ∉ job.errors then pure ()
  else do
    raiseIf (renv.rabJob job.jobId)
    match (← get).rabJobs.find? (·.jobId = job.jobId) with
    | none => pure ()
    | some record => removeUpload env (renv.removeUpload record.jobId) record.jobId

def cleanUploads (env : ServiceEnv) (renv : RestartEnv) : List ScanJob → EStateM Exc Store Unit
  | [] => pure ()
  | job :: jobs => do
      cleanUpload env renv job
      cleanUploads env renv jobs

/-- `_clean_interrupted_uploads`. -/
def cleanInterruptedUploads (env : ServiceEnv) (renv : RestartEnv) (interruptedJobs : ℕ) :
    EStateM Exc Store Unit :=
  if interruptedJobs = 0 then pure ()
  else do
    let jobs ← zoom Store.host (fun host s => { s with host := host })
      (JobService.list renv.listAgain renv.rowsAgain)
    cleanUploads env renv jobs

/-- What `__init__` does to the database and to the upload root. -/
def restart (env : ServiceEnv) (renv : RestartEnv) : EStateM Exc Store Unit := do
  let interruptedJobs ← zoom Store.host (fun host s => { s with host := host })
    (reconcileInterrupted renv)
  cleanInterruptedUploads env renv interruptedJobs

/-! ## What the loops do -/

/-- What becomes of a job. -/
def reconciled (job : ScanJob) : ScanJob :=
  if interrupted job then { job.addError interruptedByRestart with status := .failed } else job

/-- A read of the table gives each row once. -/
structure Lists (rows : List JobId) (host : Host) : Prop where
  distinct : rows.Nodup
  complete : ∀ id, id ∈ rows ↔ (host.jobs id).isSome

section Reconcile

variable {renv : RestartEnv} {host : Host} {job : ScanJob} {jobs : List ScanJob} {count : ℕ}

@[simp] lemma reconciled_jobId (job : ScanJob) : (reconciled job).jobId = job.jobId := by
  unfold reconciled
  split <;> rfl

@[simp] lemma reconciled_inputArtifact (job : ScanJob) :
    (reconciled job).inputArtifact = job.inputArtifact := by
  unfold reconciled
  split <;> rfl

lemma reconciled_of_not_interrupted (h : interrupted job = false) : reconciled job = job := by
  simp [reconciled, h]

lemma transition_interrupted (h : interrupted job = true) :
    (job.addError interruptedByRestart).transition .failed = .ok (reconciled job) := by
  have hmem : JobStatus.failed ∈ transitions (job.addError interruptedByRestart).status := by
    simp only [interrupted, Bool.and_eq_true, decide_eq_true_eq, List.mem_cons, List.not_mem_nil,
      or_false] at h
    obtain ⟨-, h | h | h⟩ := h <;> simp [ScanJob.addError, h, transitions]
  rw [ScanJob.transition_of_mem hmem, reconciled, if_pos h]

/-- The rows of some jobs are reconciled. -/
def reconciledAt (ids : List JobId) (host : Host) : Host :=
  { host with jobs := fun id => if id ∈ ids then (host.jobs id).map reconciled else host.jobs id }

lemma reconciledAt_congr {ids ids' : List JobId} (h : ∀ id, id ∈ ids ↔ id ∈ ids') :
    reconciledAt ids host = reconciledAt ids' host := by
  simp only [reconciledAt, h]

lemma reconciledAt_nil : reconciledAt [] host = host := by simp [reconciledAt]

/-- The save of a job that has been read from its row. -/
lemma saved_reconciledAt {ids : List JobId} (hjob : host.jobs job.jobId = some job) :
    (reconciledAt ids host).saved (reconciled job) = reconciledAt (job.jobId :: ids) host := by
  simp only [reconciledAt, Host.saved]
  congr 1
  funext id
  by_cases hid : id = job.jobId
  · subst hid
    simp [hjob]
  · simp [hid]

/-- Passing over a job that was not under way. -/
lemma reconciledAt_cons {ids : List JobId} (hjob : host.jobs job.jobId = some job)
    (h : interrupted job = false) :
    reconciledAt (job.jobId :: ids) host = reconciledAt ids host := by
  simp only [reconciledAt]
  congr 1
  funext id
  by_cases hid : id = job.jobId
  · subst hid
    simp [hjob, reconciled_of_not_interrupted h]
  · simp [hid]

/-- `reconcile_interrupted` reconciles the rows that it has read, one after the other. -/
lemma reconcileJobs_cases {ids : List JobId}
    (hjobs : ∀ job ∈ jobs, host.jobs job.jobId = some job) :
    reconcileJobs renv jobs count (reconciledAt ids host) =
        .ok (count + jobs.countP interrupted)
          (reconciledAt (jobs.map (·.jobId) ++ ids) host) ∨
      ∃ exc ids', reconcileJobs renv jobs count (reconciledAt ids host) =
        .error exc (reconciledAt ids' host) := by
  induction jobs generalizing count ids with
  | nil => exact .inl rfl
  | cons job jobs ih =>
      have hjob := hjobs job List.mem_cons_self
      have hrest := fun other hother => hjobs other (List.mem_cons_of_mem job hother)
      have hids : reconciledAt (jobs.map (·.jobId) ++ job.jobId :: ids) host =
          reconciledAt ((job :: jobs).map (·.jobId) ++ ids) host :=
        reconciledAt_congr fun id => by simp [or_left_comm]
      cases hinterrupted : interrupted job with
      | true =>
          rw [reconcileJobs, if_pos hinterrupted, transition_interrupted hinterrupted]
          change (JobService.save (renv.save (reconciled job).jobId) (reconciled job) >>=
              fun _ => reconcileJobs renv jobs (count + 1)) _ = _ ∨
            ∃ exc ids', (JobService.save (renv.save (reconciled job).jobId) (reconciled job) >>=
              fun _ => reconcileJobs renv jobs (count + 1)) _ = _
          cases hsave : renv.save (reconciled job).jobId with
          | some exc => exact .inr ⟨exc, ids, rfl⟩
          | none =>
              have hcount : count + (job :: jobs).countP interrupted =
                  count + 1 + jobs.countP interrupted := by
                rw [List.countP_cons_of_pos hinterrupted]
                omega
              rw [bind_of_ok (JobService.save_none ..), saved_reconciledAt hjob, hcount, ← hids]
              exact ih hrest
      | false =>
          rw [reconcileJobs, if_neg (by simp [hinterrupted]), ← reconciledAt_cons hjob hinterrupted,
            List.countP_cons_of_neg (by simp [hinterrupted]), ← hids]
          exact ih hrest

lemma reconciledAt_read {rows : List JobId} (hkeyed : host.Keyed) :
    reconciledAt ((rows.filterMap host.jobs).map (·.jobId)) host = reconciledAt rows host := by
  simp only [reconciledAt]
  congr 1
  funext id
  cases hjob : host.jobs id with
  | none => simp
  | some job =>
      have hmem : id ∈ (rows.filterMap host.jobs).map (·.jobId) ↔ id ∈ rows := by
        refine ⟨fun h => ?_, fun h => ?_⟩
        · obtain ⟨other, hother, rfl⟩ := List.mem_map.1 h
          obtain ⟨row, hrow, hread⟩ := List.mem_filterMap.1 hother
          rwa [hkeyed row other hread]
        · exact List.mem_map.2 ⟨job, List.mem_filterMap.2 ⟨id, h, hjob⟩, hkeyed id job hjob⟩
      simp only [hmem]

lemma reconcileInterrupted_cases (hkeyed : host.Keyed) :
    reconcileInterrupted renv host =
        .ok ((renv.rows.filterMap host.jobs).countP interrupted)
          (reconciledAt renv.rows host) ∨
      ∃ exc ids, reconcileInterrupted renv host = .error exc (reconciledAt ids host) := by
  have hjobs : ∀ job ∈ renv.rows.filterMap host.jobs, host.jobs job.jobId = some job := by
    intro job hmem
    obtain ⟨id, -, hjob⟩ := List.mem_filterMap.1 hmem
    rwa [hkeyed id job hjob]
  cases hlist : renv.list with
  | some exc =>
      refine .inr ⟨exc, [], ?_⟩
      rw [reconciledAt_nil, reconcileInterrupted, JobService.list, hlist]
      rfl
  | none =>
      have hrun : reconcileInterrupted renv host =
          reconcileJobs renv (renv.rows.filterMap host.jobs) 0 (reconciledAt [] host) := by
        rw [reconciledAt_nil, reconcileInterrupted, JobService.list, hlist]
        rfl
      rw [hrun]
      have hcases := @reconcileJobs_cases renv host _ 0 [] hjobs
      rwa [Nat.zero_add, List.append_nil, reconciledAt_read hkeyed] at hcases

end Reconcile

/-- The uploads of some jobs have been removed. -/
def cleared (env : ServiceEnv) (ids : List JobId) (s : Store) : Store :=
  { s with
    directories := fun id =>
      if id ∈ ids then
        if env.keepsDirectory id then (s.directories id).map fun _ => none else none
      else s.directories id }

/-- The jobs whose uploads are removed. -/
def toClean (rows : List SubmittedJob) (jobs : List ScanJob) : List JobId :=
  (jobs.filter fun job => interruptedByRestart ∈ job.errors ∧
    ∃ row ∈ rows, row.jobId = job.jobId).map (·.jobId)

section Clean

variable {env : ServiceEnv} {renv : RestartEnv} {s t : Store} {ids : List JobId} {id : JobId}
  {jobs : List ScanJob}

lemma cleared_congr {ids' : List JobId} (h : ∀ id, id ∈ ids ↔ id ∈ ids') :
    cleared env ids s = cleared env ids' s := by
  simp only [cleared, h]

lemma cleared_nil : cleared env [] s = s := by simp [cleared]

lemma removeUpload_cleared :
    removeUpload env none id (cleared env ids s) = .ok () (cleared env (id :: ids) s) := by
  change EStateM.Result.ok () _ = _
  congr 1
  simp only [cleared]
  congr 1
  funext other
  by_cases hother : other = id
  · subst hother
    by_cases hmem : other ∈ ids
    · cases hkeeps : env.keepsDirectory other
      · simp [hmem]
      · simp [hmem, Function.comp_def]
    · simp [hmem]
  · simp [hother]

lemma toClean_cons {rows : List SubmittedJob} (job : ScanJob) (jobs : List ScanJob) :
    toClean rows (job :: jobs) = toClean rows [job] ++ toClean rows jobs := by
  rw [toClean, ← List.singleton_append, List.filter_append, List.map_append]
  rfl

lemma cleanUpload_cases (job : ScanJob) :
    cleanUpload env renv job (cleared env ids s) =
        .ok () (cleared env (toClean s.rabJobs [job] ++ ids) s) ∨
      ∃ exc, cleanUpload env renv job (cleared env ids s) = .error exc (cleared env ids s) := by
  by_cases herrors : interruptedByRestart ∈ job.errors
  · rw [cleanUpload, if_neg (not_not.2 herrors)]
    cases hlook : renv.rabJob job.jobId with
    | some exc => exact .inr ⟨exc, rfl⟩
    | none =>
        rw [bind_of_ok (raiseIf_none _), get_bind_apply]
        have hrows : (cleared env ids s).rabJobs = s.rabJobs := rfl
        rw [hrows]
        cases hfind : s.rabJobs.find? fun row => decide (row.jobId = job.jobId) with
        | none =>
            have hnone : ¬∃ row ∈ s.rabJobs, row.jobId = job.jobId := by
              rintro ⟨row, hrow, hid⟩
              simpa [hid] using List.find?_eq_none.1 hfind row hrow
            have htoClean : toClean s.rabJobs [job] = [] := by simp [toClean, hnone]
            rw [htoClean]
            exact .inl rfl
        | some record =>
            have hrecord := List.mem_of_find?_eq_some hfind
            have hid : record.jobId = job.jobId := by simpa using List.find?_some hfind
            have htoClean : toClean s.rabJobs [job] = [job.jobId] := by
              have hsome : ∃ row ∈ s.rabJobs, row.jobId = job.jobId := ⟨record, hrecord, hid⟩
              simp [toClean, herrors, hsome]
            rw [htoClean]
            simp only [hid]
            cases hremove : renv.removeUpload job.jobId with
            | some exc => exact .inr ⟨exc, rfl⟩
            | none => exact .inl removeUpload_cleared
  · rw [cleanUpload, if_pos herrors]
    have htoClean : toClean s.rabJobs [job] = [] := by simp [toClean, herrors]
    rw [htoClean]
    exact .inl rfl

/-- `_clean_interrupted_uploads` clears the uploads of the jobs in question, one after the
other. -/
lemma cleanUploads_cases :
    cleanUploads env renv jobs (cleared env ids s) =
        .ok () (cleared env (toClean s.rabJobs jobs ++ ids) s) ∨
      ∃ exc ids', cleanUploads env renv jobs (cleared env ids s) =
        .error exc (cleared env ids' s) := by
  induction jobs generalizing ids with
  | nil => exact .inl rfl
  | cons job jobs ih =>
      rw [cleanUploads]
      obtain hok | ⟨exc, herror⟩ := @cleanUpload_cases env renv s ids job
      · have hids : cleared env (toClean s.rabJobs jobs ++ (toClean s.rabJobs [job] ++ ids)) s =
            cleared env (toClean s.rabJobs (job :: jobs) ++ ids) s :=
          cleared_congr fun id => by simp [toClean_cons job jobs, or_left_comm]
        rw [bind_of_ok hok, ← hids]
        exact ih
      · rw [bind_of_error herror]
        exact .inr ⟨exc, ids, rfl⟩

/-- The uploads that a construction removes if nothing fails. -/
def cleans (renv : RestartEnv) (s : Store) : List JobId :=
  if (renv.rows.filterMap s.host.jobs).countP interrupted = 0 then []
  else toClean s.rabJobs (renv.rowsAgain.filterMap (reconciledAt renv.rows s.host).jobs)

/-- What a construction comes to. -/
lemma restart_cases (hkeyed : s.host.Keyed) :
    restart env renv s =
        .ok () (cleared env (cleans renv s) { s with host := reconciledAt renv.rows s.host }) ∨
      ∃ exc ids ids', restart env renv s =
        .error exc (cleared env ids' { s with host := reconciledAt ids s.host }) := by
  obtain hok | ⟨exc, ids, herror⟩ := @reconcileInterrupted_cases renv s.host hkeyed
  · have hzoom : zoom Store.host (fun host s => { s with host := host })
        (reconcileInterrupted renv) s = .ok _ { s with host := reconciledAt renv.rows s.host } :=
      zoom_of_ok hok
    rw [restart, bind_of_ok hzoom, cleanInterruptedUploads, cleans]
    by_cases hcount : (renv.rows.filterMap s.host.jobs).countP interrupted = 0
    · rw [if_pos hcount, if_pos hcount, cleared_nil]
      exact .inl rfl
    · rw [if_neg hcount, if_neg hcount]
      set u : Store := { s with host := reconciledAt renv.rows s.host } with hu
      cases hlist : renv.listAgain with
      | some exc =>
          refine .inr ⟨exc, renv.rows, [], ?_⟩
          rw [cleared_nil]
          rfl
      | none =>
          have hread : zoom Store.host (fun host s => { s with host := host })
              (JobService.list none renv.rowsAgain) u =
              .ok (renv.rowsAgain.filterMap u.host.jobs) u := rfl
          rw [bind_of_ok hread]
          have hcases := @cleanUploads_cases env renv u [] (renv.rowsAgain.filterMap u.host.jobs)
          rw [cleared_nil, List.append_nil] at hcases
          obtain hok | ⟨exc, ids, herror⟩ := hcases
          · exact .inl hok
          · exact .inr ⟨exc, _, ids, herror⟩
  · refine .inr ⟨exc, ids, [], ?_⟩
    rw [cleared_nil, restart, bind_of_error]
    simp only [zoom, herror]

end Clean

/-! ## What a construction leaves -/

section Restart

variable {env : ServiceEnv} {renv : RestartEnv} {s : Store} {row : SubmittedJob} {job : ScanJob}

/-- Some job of a client was under way. -/
def Interrupts (host : Host) : Prop := ∃ id job, host.jobs id = some job ∧ interrupted job = true

lemma countP_interrupted_eq_zero {rows : List JobId} {host : Host} (h : Lists rows host) :
    (rows.filterMap host.jobs).countP interrupted = 0 ↔ ¬Interrupts host := by
  rw [List.countP_eq_zero]
  refine ⟨fun hnone => ?_, fun hnone job hmem hinterrupted => ?_⟩
  · rintro ⟨id, job, hjob, hinterrupted⟩
    have hid : id ∈ rows := (h.complete id).2 (by simp [hjob])
    exact hnone job (List.mem_filterMap.2 ⟨id, hid, hjob⟩) hinterrupted
  · obtain ⟨id, -, hjob⟩ := List.mem_filterMap.1 hmem
    exact hnone ⟨id, job, hjob, hinterrupted⟩

/-- A construction that nothing stops has reconciled all rows. -/
lemma reconciledAt_all {rows : List JobId} {host : Host} (h : Lists rows host) (id : JobId) :
    (reconciledAt rows host).jobs id = (host.jobs id).map reconciled := by
  simp only [reconciledAt]
  split
  · rfl
  next hid =>
    rw [h.complete, Bool.not_eq_true, Option.isSome_eq_false_iff, Option.isNone_iff_eq_none]
      at hid
    rw [hid]
    rfl

/-- Which uploads a construction removes. -/
lemma mem_cleans (hkeyed : s.host.Keyed) (hlists : Lists renv.rows s.host)
    (hagain : Lists renv.rowsAgain s.host) {id : JobId} :
    id ∈ cleans renv s ↔ Interrupts s.host ∧ (∃ row ∈ s.rabJobs, row.jobId = id) ∧
      ∃ job, s.host.jobs id = some job ∧ interruptedByRestart ∈ (reconciled job).errors := by
  rw [cleans]
  by_cases hinterrupts : Interrupts s.host
  · have hcount := mt (countP_interrupted_eq_zero hlists).1 (not_not.2 hinterrupts)
    rw [if_neg hcount]
    simp only [hinterrupts, true_and, toClean, List.mem_map, List.mem_filter, List.mem_filterMap,
      decide_eq_true_eq, reconciledAt_all hlists, Option.map_eq_some_iff]
    constructor
    · rintro ⟨_, ⟨⟨row, -, job, hjob, rfl⟩, herrors, hrow⟩, rfl⟩
      rw [reconciled_jobId] at hrow ⊢
      rw [hkeyed row job hjob]
      rw [hkeyed row job hjob] at hrow
      exact ⟨hrow, job, hjob, herrors⟩
    · rintro ⟨hrow, job, hjob, herrors⟩
      have hid : (reconciled job).jobId = id := by rw [reconciled_jobId, hkeyed id job hjob]
      refine ⟨reconciled job, ⟨⟨id, ?_, job, hjob, rfl⟩, herrors, hid ▸ hrow⟩, hid⟩
      exact (hagain.complete id).2 (by simp [hjob])
  · have hcount := (countP_interrupted_eq_zero hlists).2 hinterrupts
    simp [hcount, hinterrupts]

lemma reconciled_status : (reconciled job).status ∈ terminalStatuses ↔
    interrupted job = true ∨ job.status ∈ terminalStatuses := by
  cases h : interrupted job with
  | true => simp [reconciled, h, terminalStatuses]
  | false => simp [reconciled, h]

lemma reconciled_errors : interruptedByRestart ∈ (reconciled job).errors ↔
    interrupted job = true ∨ interruptedByRestart ∈ job.errors := by
  cases h : interrupted job with
  | true => simp [reconciled, h, ScanJob.addError]
  | false => simp [reconciled, h]

lemma upload_cleared {ids : List JobId} {id : JobId} :
    (cleared env ids s).upload id = if id ∈ ids then none else s.upload id := by
  simp only [cleared, Store.upload]
  split
  · split
    · cases s.directories id <;> rfl
    · rfl
  · rfl

/-- What is over once the service has been built again: a job of a client that was under way, if
its upload has a row or none was there, and a job that was over before.  Of the jobs that an
earlier construction has failed, those whose uploads are still there are over exactly if a job was
under way this time.  Files `incoming-*` stay, and so do the directories of ids without a job. -/
theorem restart_over_iff (hkeyed : s.host.Keyed) (hlists : Lists renv.rows s.host)
    (hagain : Lists renv.rowsAgain s.host) (hreturns : Returns (restart env renv) s) :
    (∀ id job, s.host.jobs id = some job →
      ((final (restart env renv) s).Over id ↔
        (interrupted job = true ∨ job.status ∈ terminalStatuses) ∧
          (s.upload id = none ∨ (∃ row ∈ s.rabJobs, row.jobId = id) ∧
            (interrupted job = true ∨
              interruptedByRestart ∈ job.errors ∧ Interrupts s.host)))) ∧
      (∀ id, s.host.jobs id = none →
        (final (restart env renv) s).directories id = s.directories id) ∧
      (final (restart env renv) s).incoming = s.incoming := by
  have hrun : restart env renv s =
      .ok () (cleared env (cleans renv s) { s with host := reconciledAt renv.rows s.host }) := by
    obtain hok | ⟨exc, ids, ids', herror⟩ := @restart_cases env renv s hkeyed
    · exact hok
    · simp [Returns, raised, herror] at hreturns
  rw [final_of_ok hrun]
  refine ⟨fun id job hjob => ?_, fun id hjob => ?_, rfl⟩
  · have hstored : (reconciledAt renv.rows s.host).jobs id = some (reconciled job) := by
      rw [reconciledAt_all hlists, hjob]
      rfl
    have hstatus : ScanService.StoredAs (reconciledAt renv.rows s.host) id terminalStatuses ↔
        interrupted job = true ∨ job.status ∈ terminalStatuses := by
      rw [← reconciled_status]
      refine ⟨fun h => ?_, fun h => ⟨_, hstored, ?_, h⟩⟩
      · obtain ⟨stored, hrow, -, hterminal⟩ := h
        rw [hstored] at hrow
        exact Option.some.inj hrow ▸ hterminal
      · rw [reconciled_jobId, hkeyed id job hjob]
    have hclean : id ∈ cleans renv s ↔ (∃ row ∈ s.rabJobs, row.jobId = id) ∧
        (interrupted job = true ∨ interruptedByRestart ∈ job.errors ∧ Interrupts s.host) := by
      rw [mem_cleans hkeyed hlists hagain]
      simp only [hjob, Option.some.injEq, exists_eq_left', reconciled_errors]
      have hinterrupts : interrupted job = true → Interrupts s.host := fun h => ⟨id, job, hjob, h⟩
      tauto
    rw [Store.Over, upload_cleared, ← hclean]
    refine and_congr hstatus ?_
    by_cases hmem : id ∈ cleans renv s
    · simp [hmem]
    · simp [hmem, Store.upload]
  · have hmem : id ∉ cleans renv s := fun h => by
      obtain ⟨-, -, job, hjob', -⟩ := (mem_cleans hkeyed hlists hagain).1 h
      cases hjob.symm.trans hjob'
    simp [cleared, hmem]

end Restart

/-! ## A job that waits in the queue -/

/-- A construction in which nothing fails, over a table with one row. -/
def plainRestart : RestartEnv where
  rows := [0]
  rowsAgain := [0]
  list := none
  save := fun _ => none
  listAgain := none
  rabJob := fun _ => none
  removeUpload := fun _ => none

/-- A process has ended while a job was waiting for a worker. -/
def leftBehind : Store :=
  { emptyStore with
    host := plainState.host
    rabJobs := [submittedJob plainService (plainCall fun _ => none) []
      ⟨Hashes.empty.sha256, Hashes.empty.sha256, Hashes.empty.sha256⟩ 0]
    directories := fun id => if id = 0 then some (some []) else none }

lemma leftBehind_job {id : JobId} {job : ScanJob} (h : leftBehind.host.jobs id = some job) :
    id = 0 ∧ job = plainJob := by
  simp only [leftBehind, plainState, Option.ite_none_right_eq_some, Option.some.injEq] at h
  exact ⟨h.1, h.2.symm⟩

lemma leftBehind_lists : Lists [0] leftBehind.host where
  distinct := List.nodup_singleton 0
  complete id := by
    simp [leftBehind, plainState]

/-- The next construction fails it and removes its upload. -/
theorem waiting_restarted :
    leftBehind.upload 0 = some [] ∧
      (final (restart plainServiceEnv plainRestart) leftBehind).Over 0 := by
  have hkeyed : leftBehind.host.Keyed := by
    intro id job hjob
    obtain ⟨rfl, rfl⟩ := leftBehind_job hjob
    rfl
  have hreturns : Returns (restart plainServiceEnv plainRestart) leftBehind := rfl
  exact ⟨rfl, ((restart_over_iff hkeyed leftBehind_lists leftBehind_lists hreturns).1 0 plainJob
    rfl).2 ⟨.inl rfl, .inr ⟨⟨_, List.mem_singleton_self _, rfl⟩, .inl rfl⟩⟩⟩

-- The job of a call that has ended before its row was written keeps its upload.
example :
    let s := { leftBehind with rabJobs := [] }
    let t := final (restart plainServiceEnv plainRestart) s
    (t.host.jobs 0).map (·.status) = some .failed ∧ t.upload 0 = some [] := ⟨rfl, rfl⟩

end RABService

end AVBox
