import AVBox.Protocol.Worker

/-!
# What a job was submitted as

The artifact of a job is given to it when it is created.  A run of the job, however it ends, and
the worker behind it leave it as it is, in memory and in the row of the job.
-/

namespace AVBox

open Program ScanService

/-- The row of the job has its id and its artifact. -/
def RowKept (s : ScanState) : Prop :=
  ∃ stored, s.host.jobs s.job.jobId = some stored ∧ stored.jobId = s.job.jobId ∧
    stored.inputArtifact = s.job.inputArtifact

/-- The job is what it was submitted as, and so is its row. -/
structure ArtifactFrame (s t : ScanState) : Prop where
  jobId : t.job.jobId = s.job.jobId
  artifact : t.job.inputArtifact = s.job.inputArtifact
  nextJobId : s.host.nextJobId ≤ t.host.nextJobId
  row : RowKept t

/-- `ArtifactFrame`, for a job that has been created. -/
def KeepsArtifact (s t : ScanState) : Prop :=
  ScanState.Issued s → RowKept s → ArtifactFrame s t

variable {env : ScanEnv} {late : LateOutcomes env.sha256} {source : Bytes} {s t : ScanState}

namespace KeepsArtifact

lemma refl (s : ScanState) : KeepsArtifact s s := fun _ hrow => ⟨rfl, rfl, Nat.le_refl _, hrow⟩

lemma trans (s t u : ScanState) (hst : KeepsArtifact s t) (htu : KeepsArtifact t u) :
    KeepsArtifact s u := by
  intro hs hrow
  have h₁ := hst hs hrow
  have ht : ScanState.Issued t := by
    unfold ScanState.Issued
    rw [h₁.jobId]
    exact Nat.lt_of_lt_of_le hs h₁.nextJobId
  have h₂ := htu ht h₁.row
  exact ⟨h₂.jobId.trans h₁.jobId, h₂.artifact.trans h₁.artifact,
    Nat.le_trans h₁.nextJobId h₂.nextJobId, h₂.row⟩

/-- A change of the job in memory that keeps its id and its artifact. -/
lemma updateJob {f : ScanJob → ScanJob} (hid : ∀ job, (f job).jobId = job.jobId)
    (hartifact : ∀ job, (f job).inputArtifact = job.inputArtifact) :
    Moves KeepsArtifact (AVBox.updateJob f) := by
  rintro s - ⟨stored, hstored, hrow, hsame⟩
  refine ⟨hid s.job, hartifact s.job, Nat.le_refl _, stored, ?_, ?_, ?_⟩
  · rwa [final, updateJob_apply, hid]
  · rwa [final, updateJob_apply, hid]
  · rwa [final, updateJob_apply, hartifact]

/-- The row becomes the job in memory. -/
lemma saved (job : ScanJob) (hid : job.jobId = s.job.jobId)
    (hartifact : job.inputArtifact = s.job.inputArtifact) :
    KeepsArtifact s ⟨job, s.host.saved job⟩ :=
  fun _ _ => ⟨hid, hartifact, Nat.le_refl _, job, Host.saved_jobs_self _ _, rfl, rfl⟩

lemma transition (fault : Option Exc) (target : JobStatus) :
    Moves KeepsArtifact (JobService.transition fault target) := by
  intro s
  by_cases hmem : target ∈ transitions s.job.status
  · have hrun := @JobService.transition_of_mem fault target s hmem
    cases fault with
    | none =>
        rw [final_of_ok hrun]
        exact saved _ rfl rfl
    | some e =>
        rw [final_of_error hrun]
        exact fun _ hrow => ⟨rfl, rfl, Nat.le_refl _, hrow⟩
  · rw [final_of_error (JobService.transition_of_not_mem hmem)]
    exact refl s

lemma admission (content : Bytes) (job : ScanJob) :
    Moves KeepsArtifact (onHost (ScanService.admission env content job)) := by
  refine Moves.zoom fun s => ?_
  have hsame := PreservationService.admitSource_moves (env.admitFault job.jobId) content
    job.inputArtifact job.normalizedVerdict s.host
  rintro - ⟨stored, hstored, hrow⟩
  exact ⟨rfl, rfl, Nat.le_of_eq hsame.2.2.1.symm, stored,
    (congrFun hsame.1 s.job.jobId).trans hstored, hrow⟩

end KeepsArtifact

lemma preserve_artifact (content : Bytes) : Moves KeepsArtifact (preserve env content) := by
  have htrans := KeepsArtifact.trans
  refine Moves.bind htrans (Moves.get KeepsArtifact.refl) fun s => Moves.ite ?_ ?_
  · refine Moves.bind htrans (KeepsArtifact.admission content _) fun path => ?_
    exact Moves.bind htrans (KeepsArtifact.updateJob (fun _ => rfl) fun _ => rfl) fun _ =>
      KeepsArtifact.transition _ _
  · exact Moves.bind htrans (KeepsArtifact.updateJob (fun _ => rfl) fun _ => rfl) fun _ =>
      KeepsArtifact.transition _ _

lemma attempt_artifact (requested : List String) (original : ℕ × Digest 64) :
    Moves KeepsArtifact (attempt env late.stages requested source original) := by
  have htrans := KeepsArtifact.trans
  refine Moves.bind htrans (fun s hs hrow => ?_) fun _ => ?_
  · have hframe : StageFrame env.sha256 s
        (final (analyze env late.stages requested source) s) := analyze_frame hs
    obtain ⟨stored, hstored, hid, hartifact⟩ := hrow
    refine ⟨hframe.jobId, hframe.inputArtifact, hframe.nextJobId, stored, ?_, ?_, ?_⟩
    · rw [hframe.jobId, hframe.rows _ hs, hstored]
    · rw [hid, hframe.jobId]
    · rw [hartifact, hframe.inputArtifact]
  · refine Moves.bind htrans (fun s => ?_) preserve_artifact
    rw [checkSource_state]
    exact KeepsArtifact.refl s

lemma finish_artifact : Moves KeepsArtifact (finish env) := by
  intro t
  obtain ⟨hjob, -, hclean, hunclean⟩ := @finish_row env t
  generalize final (finish env) t = u at hjob hclean hunclean ⊢
  obtain ⟨job, host⟩ := u
  obtain rfl : job = t.job := hjob
  by_cases hcase : FinishClean env t.job.jobId
  · obtain rfl : host = t.host.saved t.job := hclean hcase
    exact KeepsArtifact.saved _ rfl rfl
  · obtain rfl : host = t.host := hunclean hcase
    exact KeepsArtifact.refl t

/-- A whole run keeps the artifact, however it ends. -/
lemma execute_artifact : Moves KeepsArtifact (execute env late.stages source) := by
  have htrans := KeepsArtifact.trans
  have hrefl := KeepsArtifact.refl
  refine Moves.bind htrans (Moves.get hrefl) fun s => Moves.ite (Moves.throw hrefl _) ?_
  refine Moves.bind htrans (KeepsArtifact.transition _ _) fun _ => ?_
  refine Moves.tryFinally htrans (Moves.tryCatch htrans (attempt_artifact _ _) fun e => ?_)
    finish_artifact
  refine Moves.bind htrans (Moves.get hrefl) fun t => ?_
  exact Moves.bind htrans (KeepsArtifact.updateJob (fun _ => rfl) fun _ => rfl) fun _ =>
    KeepsArtifact.transition _ _

namespace RABService

variable {wenv : WorkerEnv} {job : ScanJob} {host : Host} {e : Exc}

lemma markFailed_artifact {stored current : ScanJob} (h : markFailed e stored = .ok current) :
    current.inputArtifact = stored.inputArtifact := by
  unfold markFailed at h
  simp only at h
  split at h
  · obtain ⟨-, rfl⟩ := ScanJob.transition_eq_ok.1 h
    rfl
  · obtain rfl := Except.ok.inj h
    rfl

/-- The `except` clause of the worker keeps the row. -/
lemma handleFailure_row (hrow : RowKept t) :
    (final (handleFailure wenv e) t).job = t.job ∧ RowKept (final (handleFailure wenv e) t) := by
  obtain ⟨stored, hstored, hid, hartifact⟩ := hrow
  have hrun := @handleFailure_apply wenv t e stored hstored
  have hkept : t.job = t.job ∧ RowKept t := ⟨rfl, stored, hstored, hid, hartifact⟩
  cases hget : wenv.getCurrent t.job.jobId with
  | some e' =>
      rw [hget] at hrun
      rwa [final_of_error hrun]
  | none =>
      cases hmark : markFailed e stored with
      | error e' =>
          rw [hget, hmark] at hrun
          rwa [final_of_error hrun]
      | ok current =>
          cases hsave : wenv.saveCurrent t.job.jobId with
          | some e' =>
              rw [hget, hmark, hsave] at hrun
              rwa [final_of_error hrun]
          | none =>
              rw [hget, hmark, hsave] at hrun
              rw [final_of_ok hrun]
              have hcurrent : current.jobId = t.job.jobId := (markFailed_jobId hmark).trans hid
              refine ⟨rfl, current, ?_, hcurrent, (markFailed_artifact hmark).trans hartifact⟩
              rw [← hcurrent]
              exact Host.saved_jobs_self _ _

/-- The run of an item keeps the artifact in the row of its job. -/
lemma runItem_row (hqueued : Queued host job) :
    ∃ stored, (final (runItem wenv) ⟨job, host⟩).host.jobs job.jobId = some stored ∧
      stored.jobId = job.jobId ∧ stored.inputArtifact = job.inputArtifact := by
  have hstart : RowKept ⟨job, host⟩ := ⟨job, hqueued.row, rfl, rfl⟩
  have hframe : ArtifactFrame ⟨job, host⟩ (final (runJob wenv job.jobId) ⟨job, host⟩) :=
    execute_artifact _ hqueued.issued hstart
  have hdone : ∀ t : ScanState, t.job = (final (runJob wenv job.jobId) ⟨job, host⟩).job →
      RowKept t → ∃ stored, t.host.jobs job.jobId = some stored ∧ stored.jobId = job.jobId ∧
        stored.inputArtifact = job.inputArtifact := by
    rintro t ht ⟨stored, hstored, hid, hartifact⟩
    rw [ht, hframe.jobId] at hstored hid
    rw [ht, hframe.artifact] at hartifact
    exact ⟨stored, hstored, hid, hartifact⟩
  rcases @runItem_apply wenv ⟨job, host⟩ with ⟨-, -, hrun⟩ | ⟨-, e, hrun⟩
  · rw [final_of_ok hrun]
    exact hdone _ rfl hframe.row
  · have hfinal : final (runItem wenv) ⟨job, host⟩ =
        final (handleFailure wenv e) (final (runJob wenv job.jobId) ⟨job, host⟩) := by
      rw [final, hrun]
      rfl
    rw [hfinal]
    obtain ⟨hjob, hrow⟩ := @handleFailure_row _ wenv e hframe.row
    exact hdone _ hjob hrow

end RABService

end AVBox
