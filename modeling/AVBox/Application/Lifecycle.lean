import AVBox.Application.Stages

/-!
# How a run of a job ends

A run of `execute_queued` passes its stages, reads the source again and then decides the outcome
of the job.  An exception before that decision is recorded and the job is FAILED; the `finally`
clause saves the job either way.

`positive_quarantined_iff` says which positive objects reach quarantine: those of the jobs none of
whose stages raises.  A scanner that reports a match and a later stage that raises leave the job
FAILED and the object out of quarantine (`positive_then_raise_not_quarantined`).
-/

namespace AVBox

open Program

namespace ScanService

variable {env : ScanEnv} {late : LateOutcomes env.sha256} {source content : Bytes}
  {s s' : ScanState} {e : Exc}

/-! ## The steps after the stages -/

/-- The job after its transition to RUNNING has been saved. -/
def running (s : ScanState) : ScanState :=
  ⟨{ s.job with status := .running }, s.host.saved { s.job with status := .running }⟩

/-- The source reads as what was submitted. -/
structure SourceUnchanged (env : ScanEnv) (job : ScanJob) (source : Bytes) : Prop where
  read : env.sourceAfter job.jobId = .ok source
  byteSize : job.inputArtifact.byteSize = source.length
  digest : job.inputArtifact.hashes.sha256 = env.sha256 source

lemma checkSource_of_unchanged {job : ScanJob} (h : SourceUnchanged env job source)
    (hid : s.job.jobId = job.jobId) :
    checkSource env (job.inputArtifact.byteSize, job.inputArtifact.hashes.sha256) s =
      .ok source s := by
  simp [checkSource, bind_apply, hid, h.read, h.byteSize, h.digest]

lemma checkSource_eq_ok {original : ℕ × Digest 64} {t : ScanState}
    (h : checkSource env original s = .ok content t) :
    t = s ∧ env.sourceAfter s.job.jobId = .ok content ∧
      (content.length, env.sha256 content) = original := by
  unfold checkSource at h
  rw [get_bind_apply] at h
  cases hread : env.sourceAfter s.job.jobId with
  | error e => simp [hread, bind_apply] at h
  | ok c =>
      rw [hread, bind_of_ok (lift_ok c s)] at h
      split at h
      · simp at h
      · next horiginal =>
          obtain ⟨rfl, rfl⟩ := EStateM.Result.ok.inj h
          exact ⟨rfl, rfl, not_not.1 horiginal⟩

lemma checkSource_state (original : ℕ × Digest 64) (s : ScanState) :
    final (checkSource env original) s = s := by
  have htrans : ∀ t u v : ScanState, t = u → u = v → t = v := fun _ _ _ => Eq.trans
  have hmoves : Moves Eq (checkSource env original) := by
    refine Moves.bind htrans (Moves.get fun _ => rfl) fun t => ?_
    refine Moves.bind htrans (Moves.lift (fun _ => rfl) _) fun c => ?_
    exact Moves.ite (Moves.bind htrans (Moves.throw (fun _ => rfl) _) fun _ =>
      Moves.pure (fun _ => rfl) _) (Moves.pure (fun _ => rfl) _)
  exact (hmoves s).symm

/-- The job whose outcome has been decided. -/
def decided (job : ScanJob) (decision : String) (target : JobStatus) : ScanJob :=
  { job with preservationDecision := some decision, status := target }

/-- The end of a transition out of RUNNING whose target is one of the two outcomes. -/
lemma transition_outcome {decision : String} {target : JobStatus}
    (hstatus : s.job.status = .running)
    (htarget : target ∈ [JobStatus.complete, .quarantined]) (fault : Option Exc) :
    JobService.transition fault target
        ⟨{ s.job with preservationDecision := some decision }, s.host⟩ =
      match fault with
      | none => .ok () ⟨decided s.job decision target, s.host.saved (decided s.job decision target)⟩
      | some e => .error e ⟨decided s.job decision target, s.host⟩ := by
  have hmem : target ∈ transitions s.job.status := by
    rw [hstatus]
    revert htarget
    cases target <;> decide
  exact JobService.transition_of_mem hmem

/-- A job with a positive verdict is admitted, then its transition is saved. -/
lemma preserve_of_positive (hstatus : s.job.status = .running)
    (hpositive : s.job.normalizedVerdict.positive = true) :
    preserve env content s =
      match admission env content s.job s.host with
      | .error e host => .error e ⟨s.job, host⟩
      | .ok path host =>
          let job := decided s.job s!"local-quarantine:{path.val}" .quarantined
          match env.fault s.job.jobId .saveOutcome with
          | none => .ok () ⟨job, host.saved job⟩
          | some e => .error e ⟨job, host⟩ := by
  unfold preserve
  rw [get_bind_apply, if_pos hpositive]
  cases hadmission : admission env content s.job s.host with
  | error e host =>
      exact bind_of_error (onHost_of_error hadmission) _
  | ok path host =>
      rw [bind_of_ok (onHost_of_ok hadmission), updateJob_bind_apply]
      exact transition_outcome (s := { s with host := host }) hstatus (by simp) _

/-- Any other job completes. -/
lemma preserve_of_not_positive (hstatus : s.job.status = .running)
    (hpositive : s.job.normalizedVerdict.positive = false) :
    preserve env content s =
      let job := decided s.job "transient-bytes-removed" .complete
      match env.fault s.job.jobId .saveOutcome with
      | none => .ok () ⟨job, s.host.saved job⟩
      | some e => .error e ⟨job, s.host⟩ := by
  unfold preserve
  rw [get_bind_apply, if_neg (by simp [hpositive]), updateJob_bind_apply]
  exact transition_outcome hstatus (by simp) _

/-- The `except` clause: only a job that has no outcome yet can turn FAILED. -/
lemma fail_of_running (hstatus : s.job.status = .running) (e : Exc) :
    fail env e s =
      let job := { s.job.addError e.text with status := .failed }
      match env.fault s.job.jobId .saveFailed with
      | none => .ok () ⟨job, s.host.saved job⟩
      | some e' => .error e' ⟨job, s.host⟩ := by
  unfold fail
  rw [get_bind_apply, updateJob_bind_apply]
  have hmem : JobStatus.failed ∈ transitions (s.job.addError e.text).status := by
    simp [ScanJob.addError, hstatus, transitions]
  exact JobService.transition_of_mem hmem

lemma fail_of_decided (hstatus : s.job.status ∈ [JobStatus.complete, .quarantined]) (e : Exc) :
    fail env e s = .error ((s.job.addError e.text).transitionError .failed)
      ⟨s.job.addError e.text, s.host⟩ := by
  unfold fail
  rw [get_bind_apply, updateJob_bind_apply]
  have hmem : JobStatus.failed ∉ transitions (s.job.addError e.text).status := by
    rcases List.mem_pair.1 hstatus with h | h <;> simp [ScanJob.addError, h, transitions]
  exact JobService.transition_of_not_mem hmem

/-- The `finally` clause returns when both its calls do, and the row becomes the job. -/
lemma finish_eq_ok :
    finish env s = .ok () s' ↔
      env.fault s.job.jobId .removeStaging = none ∧ env.fault s.job.jobId .saveFinal = none ∧
        s' = ⟨s.job, s.host.saved s.job⟩ := by
  unfold finish
  rw [get_bind_apply]
  cases env.fault s.job.jobId .removeStaging <;> cases env.fault s.job.jobId .saveFinal <;>
    simp [bind_apply, onHost, zoom, eq_comm]

lemma fail_eq_ok (h : fail env e s = .ok () s') : s'.job.status = .failed := by
  unfold fail at h
  rw [get_bind_apply, updateJob_bind_apply] at h
  exact JobService.transition_eq_ok h

/-! ## Whole runs -/

/-- A run that returns has passed the `try` statement and its `finally` clause. -/
lemma execute_eq_ok {stages : Stages} (h : execute env stages source s = .ok () s') :
    s.job.status = .queued ∧ ∃ t, guarded env stages source s.job (running s) = .ok () t ∧
      finish env t = .ok () s' := by
  unfold execute at h
  rw [get_bind_apply] at h
  by_cases hqueued : s.job.status = .queued
  · refine ⟨hqueued, ?_⟩
    have hmem : JobStatus.running ∈ transitions s.job.status := by simp [hqueued, transitions]
    rw [if_neg (not_not.2 hqueued), bind_apply, JobService.transition_of_mem hmem] at h
    cases hfault : env.fault s.job.jobId .saveRunning with
    | some e => simp [hfault] at h
    | none =>
        simp only [hfault, tryFinally_apply] at h
        split at h
        · next t ht =>
            refine ⟨t, ht, ?_⟩
            split at h
            · next hfinish => rw [hfinish, ← (EStateM.Result.ok.inj h).2]
            · simp at h
        · split at h <;> simp at h
  · simp [hqueued] at h

/-- The `try` statement is left without an exception either at its end, or through the `except`
clause once its body has raised. -/
lemma guarded_eq_ok {stages : Stages} {job : ScanJob} {t u : ScanState}
    (h : guarded env stages source job t = .ok () u) :
    attempt env stages job.requestedScanners source (submitted job) t = .ok () u ∨
      ∃ e v, attempt env stages job.requestedScanners source (submitted job) t = .error e v ∧
        fail env e v = .ok () u := by
  unfold guarded at h
  rw [tryCatch_apply] at h
  split at h
  · next hattempt => exact .inl (by rw [hattempt, ← (EStateM.Result.ok.inj h).2])
  · next e v hattempt => exact .inr ⟨e, v, hattempt, h⟩

/-- When the admission is asked for, it returns. -/
def AdmitSucceeds (env : ScanEnv) (late : LateOutcomes env.sha256) (source : Bytes)
    (s : ScanState) : Prop :=
  ∀ t, analyze env late.stages s.job.requestedScanners source (running s) = .ok () t →
    t.job.normalizedVerdict.positive = true → Returns (admission env source t.job) t.host

/-- With the source unchanged, what follows the stages is the decision alone. -/
lemma attempt_of_analyze {job : ScanJob} {t u : ScanState}
    (hunchanged : SourceUnchanged env job source)
    (hanalyze : analyze env late.stages job.requestedScanners source t = .ok () u)
    (hid : u.job.jobId = job.jobId) :
    attempt env late.stages job.requestedScanners source (submitted job) t =
      preserve env source u := by
  unfold attempt
  rw [bind_of_ok hanalyze, submitted, bind_of_ok (checkSource_of_unchanged hunchanged hid)]

/-- A decision that raises although the admission returned leaves the job decided, so that the
`except` clause raises as well. -/
lemma fail_preserve_error {t u v : ScanState} (hstatus : t.job.status = .running)
    (hadmission : t.job.normalizedVerdict.positive = true →
      Returns (admission env content t.job) t.host)
    (hpreserve : preserve env content t = .error e u) : fail env e u ≠ .ok () v := by
  have hdecided : u.job.status ∈ [JobStatus.complete, .quarantined] := by
    by_cases hpositive : t.job.normalizedVerdict.positive = true
    · obtain ⟨path, host, hok⟩ := returns_iff.1 (hadmission hpositive)
      rw [preserve_of_positive hstatus hpositive, hok] at hpreserve
      simp only at hpreserve
      split at hpreserve
      · simp at hpreserve
      · rw [← (EStateM.Result.error.inj hpreserve).2]
        simp [decided]
    · rw [preserve_of_not_positive hstatus (by simpa using hpositive)] at hpreserve
      simp only at hpreserve
      split at hpreserve
      · simp at hpreserve
      · rw [← (EStateM.Result.error.inj hpreserve).2]
        simp [decided]
  rw [fail_of_decided hdecided]
  simp

/-- A positive job whose decision returns is in quarantine. -/
lemma preserve_quarantines {t u : ScanState} (hstatus : t.job.status = .running)
    (hpositive : t.job.normalizedVerdict.positive = true)
    (hdigest : t.job.inputArtifact.hashes.sha256 = env.sha256 source)
    (hcollision : ∀ content, env.sha256 content = env.sha256 source → content = source)
    (hsound : QuarantineSound env.sha256 t.host)
    (hpreserve : preserve env source t = .ok () u) :
    u.job.status = .quarantined ∧
      u.host.quarantine t.job.inputArtifact.hashes.sha256 = some source := by
  rw [preserve_of_positive hstatus hpositive] at hpreserve
  split at hpreserve
  · simp at hpreserve
  · next path host hadmission =>
      obtain ⟨rfl, -, hstored⟩ := PreservationService.admitSource_eq_ok hadmission
      simp only at hpreserve
      split at hpreserve
      · obtain ⟨-, rfl⟩ := EStateM.Result.ok.inj hpreserve
        refine ⟨rfl, ?_⟩
        simp only [Host.saved_quarantine]
        rcases hstored with ⟨hfound, rfl⟩ | ⟨hstored, -⟩
        · obtain ⟨found, hfound⟩ := Option.isSome_iff_exists.1 hfound
          have hsame : found = source := by
            refine hcollision found ?_
            rw [← hdigest]
            exact hsound _ _ hfound
          rw [PreservationService.quarantinePath] at hfound
          rw [hfound, hsame]
        · rw [hstored, PreservationService.quarantinePath, Function.update_self]
      · simp at hpreserve

/-- The decision appends no result. -/
lemma preserve_results {t u : ScanState} (hstatus : t.job.status = .running)
    (hpreserve : preserve env content t = .ok () u) :
    u.job.scannerResults = t.job.scannerResults ∧
      u.job.derivedObjects = t.job.derivedObjects := by
  by_cases hpositive : t.job.normalizedVerdict.positive = true
  · rw [preserve_of_positive hstatus hpositive] at hpreserve
    simp only at hpreserve
    split at hpreserve
    · simp at hpreserve
    · split at hpreserve
      · obtain ⟨-, rfl⟩ := EStateM.Result.ok.inj hpreserve
        exact ⟨rfl, rfl⟩
      · simp at hpreserve
  · rw [preserve_of_not_positive hstatus (by simpa using hpositive)] at hpreserve
    simp only at hpreserve
    split at hpreserve
    · obtain ⟨-, rfl⟩ := EStateM.Result.ok.inj hpreserve
      exact ⟨rfl, rfl⟩
    · simp at hpreserve

/-- A run that returns and appended a positive result has quarantined its object, with the source
unchanged and an admission that succeeds when it is asked for, exactly when no stage of the job
raised. -/
theorem positive_quarantined_iff (hissued : ScanState.Issued s)
    (hunchanged : SourceUnchanged env s.job source)
    (hcollision : ∀ content, env.sha256 content = env.sha256 source → content = source)
    (hsound : QuarantineSound env.sha256 s.host)
    (hadmission : AdmitSucceeds env late source s)
    (hrun : execute env late.stages source s = .ok () s')
    (hpositive : ∃ result ∈ appendedResults s s', result.normalizedVerdict.positive = true) :
    (s'.job.status = .quarantined ∧
        s'.host.quarantine s.job.inputArtifact.hashes.sha256 = some source) ↔
      StagesReturn env late s.job := by
  obtain ⟨-, u, hguarded, hfinish⟩ := execute_eq_ok hrun
  obtain ⟨-, -, rfl⟩ := finish_eq_ok.1 hfinish
  have hrunning : ScanState.Issued (running s) := hissued
  have hreturns : Returns (analyze env late.stages s.job.requestedScanners source) (running s) ↔
      StagesReturn env late s.job := analyze_returns (running s)
  have hframe : StageFrame env.sha256 (running s)
      (final (analyze env late.stages s.job.requestedScanners source) (running s)) :=
    analyze_frame hrunning
  constructor
  · rintro ⟨hstatus, -⟩
    rcases guarded_eq_ok hguarded with hattempt | ⟨e, v, -, hfail⟩
    · obtain ⟨⟨⟩, t, hanalyze, -⟩ := bind_eq_ok.1 hattempt
      exact hreturns.1 (returns_of_ok hanalyze)
    · rw [fail_eq_ok hfail] at hstatus
      simp at hstatus
  · intro hstages
    obtain ⟨⟨⟩, t, hanalyze⟩ := returns_iff.1 (hreturns.2 hstages)
    rw [final_of_ok hanalyze] at hframe
    have hdecision := attempt_of_analyze hunchanged hanalyze hframe.jobId
    rcases guarded_eq_ok hguarded with hattempt | ⟨e, v, hattempt, hfail⟩
    · rw [hdecision] at hattempt
      obtain ⟨hresults, hderived⟩ := preserve_results hframe.status hattempt
      have happended : appendedResults s ⟨u.job, u.host.saved u.job⟩ =
          appendedResults (running s) t := by
        simp only [appendedResults, hresults, hderived, running]
      have hverdict : t.job.normalizedVerdict.positive = true :=
        analyze_positive hrunning hanalyze (happended ▸ hpositive)
      have hstored := preserve_quarantines hframe.status hverdict
        (by rw [hframe.inputArtifact]; exact hunchanged.digest) hcollision
        (hframe.sound hsound) hattempt
      rw [hframe.inputArtifact] at hstored
      exact hstored
    · rw [hdecision] at hattempt
      exact absurd hfail (fail_preserve_error hframe.status (hadmission t hanalyze) hattempt)

/-! ## A match, and a scanner that raises after it -/

/-- Two adapters on an empty file: the first reports a match, and `second` is what probing the
other one yields. -/
def matchEnv (second : Except Exc ProbeResult) : ScanEnv where
  adapters := ["clamav", "yara"]
  genericAnalyzers := []
  analyze := fun _ _ => .error (.runtime "not a generic analyzer")
  probe := fun _ position =>
    if position = 0 then .ok ⟨true, "ClamAV 1.4", .probed, some "1.4"⟩ else second
  prepare := fun _ _ => none
  runPrepared := fun _ _ =>
    .ok ⟨"clamav", .malicious, "raw-output/clamav-0", some "1.4", none, none⟩
  cleanup := fun _ _ => none
  fault := fun _ _ => none
  admitFault := fun _ _ => none
  sourceAfter := fun _ => .ok []
  sha256 := fun content =>
    if content = [] then Hashes.empty.sha256
    else ⟨"0000000000000000000000000000000000000000000000000000000000000000", by decide⟩

/-- A queued job for the empty file on a fresh host. -/
def queuedJob (requested : List String) : ScanState where
  job := { ScanJob.new 0 "local-cli" ⟨.empty, 0, "object", none, "application/octet-stream",
      "local-cli"⟩ requested requested with status := .queued }
  host := ⟨fun _ => none, fun _ => none, fun _ => none, fun _ => false, 1, []⟩

/-- A run of `queuedJob` that has no late stage. -/
def matchRun (second : Except Exc ProbeResult) : ScanState :=
  final (execute (matchEnv second) ⟨none, none⟩ []) (queuedJob ["clamav", "yara"])

/-- The other adapter answers that it is not installed: the match is quarantined. -/
theorem match_quarantined :
    let s' := matchRun (.ok ⟨false, "yara is not installed", .notInstalled, none⟩)
    s'.job.status = .quarantined ∧ s'.host.quarantine Hashes.empty.sha256 = some [] := by
  intro s'
  have hcollision : ∀ content, (matchEnv (.ok ⟨false, "yara is not installed", .notInstalled,
      none⟩)).sha256 content = Hashes.empty.sha256 → content = [] := by
    intro content h
    by_contra hne
    simp [matchEnv, hne, Hashes.empty] at h
  refine (@positive_quarantined_iff _ ⟨none, none⟩ [] (queuedJob ["clamav", "yara"]) s'
    Nat.zero_lt_one ⟨rfl, rfl, rfl⟩ hcollision (fun _ _ h => by simp [queuedJob] at h) ?_ rfl
    ⟨_, List.mem_singleton_self _, rfl⟩).2 ?_
  · intro t ht _
    obtain ⟨-, rfl⟩ := EStateM.Result.ok.inj ht
    rfl
  · refine ⟨?_, by decide, by decide⟩
    intro item hitem _ _ _
    rcases List.mem_pair.1 hitem with rfl | rfl
    · exact ⟨_, rfl, fun _ _ => ⟨rfl, rfl, rfl, ⟨_, rfl⟩, rfl, rfl⟩⟩
    · exact ⟨_, rfl, fun h => by simp at h⟩

/-- The other adapter raises when it is probed: the job fails, and the object whose match was
recorded before that stays out of quarantine. -/
theorem positive_then_raise_not_quarantined :
    let s := queuedJob ["clamav", "yara"]
    let env := matchEnv (.error ⟨.osError, "PermissionError", "yara"⟩)
    ∃ s', execute env ⟨none, none⟩ [] s = .ok () s' ∧
      (∃ result ∈ appendedResults s s', result.normalizedVerdict = .malicious) ∧
      SourceUnchanged env s.job [] ∧
      Returns (PreservationService.admitSource (env.admitFault s.job.jobId) [] s.job.inputArtifact
        .malicious) s'.host ∧
      s'.job.status = .failed ∧ s'.host.quarantine Hashes.empty.sha256 = none :=
  ⟨matchRun (.error ⟨.osError, "PermissionError", "yara"⟩), rfl,
    ⟨_, List.mem_singleton_self _, rfl⟩, ⟨rfl, rfl, rfl⟩, rfl, rfl, rfl⟩

end ScanService

end AVBox
