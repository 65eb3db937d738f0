import AVBox.Application.Coverage
import AVBox.Protocol.Worker

/-!
# The results of a submitted job

`RABService.results` of `protocol/service.py` builds the envelope a client reads from the row of
a job.  The verdict it reports is the one of the job, which counts the results of the derived
objects as well, but it is reported only if the submitted object itself has a result.

`results_verdict_iff` says for which finished jobs the reported verdict is right, in every state
that the worker leaves behind.  A job whose only results are those of its derived objects is
stored as QUARANTINED and reported without a verdict (`quarantined_without_verdict`).
-/

namespace AVBox

open Program Fallible

namespace RABService

/-! ## The envelope -/

/-- A row of the `rab_jobs` table. -/
structure RabJob where
  clientId : String
  clientRequestId : String
  profile : String
  deriving DecidableEq, Repr

structure RABProtocolError where
  status : ℕ
  code : String
  message : String
  deriving DecidableEq, Repr

inductive ScannerClass
  | antivirusEngine
  | ruleEngine
  deriving DecidableEq, Repr

structure RawOutputDescriptor where
  rawOutputId : String
  /-- The digest and the size of the file, if it is there. -/
  file : Option (Digest 64 × ℕ)
  deriving DecidableEq

/-- What `_map_result` makes of the result of an adapter. -/
structure MappedResult where
  analyzerId : String
  analyzerClass : ScannerClass
  product : String
  engineVersion : Option String
  qualificationState : Option QualificationState
  normalizedVerdict : Verdict
  rawOutput : RawOutputDescriptor
  deriving DecidableEq

/-- The members of `analyzers`. -/
inductive ReportedAnalyzer
  | analyzer (result : AnalyzerResult)
  | scanner (result : MappedResult)
  deriving DecidableEq

def ReportedAnalyzer.observations : ReportedAnalyzer → List Observation
  | .analyzer result => result.observations
  | .scanner _ => []

/-- `AnalysisResultEnvelope`, without its times and its schema version. -/
structure AnalysisResultEnvelope where
  jobId : JobId
  object : ObjectIdentity
  profile : String
  state : JobStatus
  /-- `completed_at` is set. -/
  completed : Bool
  analyzers : List ReportedAnalyzer
  observations : List Observation
  verdict : Option Verdict
  derivedObjects : List DerivedObject
  relationships : List ObjectRelationship
  completeness : String
  extractionUsage : Option ExtractionUsage
  preservationContext : PreservationContext
  /-- The provenance that the preservation context is given. -/
  submission : RabJob
  errors : List String
  requestedBy : String
  verifiedSha256 : Digest 64
  rootVerdict : Option Verdict
  deriving DecidableEq

/-- `_map_result`; `rawOutputs` is what is found behind a reference to a raw output. -/
def mapResult (rawOutputs : String → Option (Digest 64 × ℕ)) (result : ScannerResult) :
    MappedResult where
  analyzerId := result.scannerId
  analyzerClass := if result.scannerId = "clamav" then .antivirusEngine else .ruleEngine
  product := if result.scannerId = "clamav" then "ClamAV" else "YARA"
  engineVersion := result.engineVersion
  qualificationState := result.qualificationState
  normalizedVerdict := result.normalizedVerdict
  rawOutput := ⟨result.rawOutputRef, rawOutputs result.rawOutputRef⟩

/-- The envelope of a job. -/
def envelope (rawOutputs : String → Option (Digest 64 × ℕ)) (job : ScanJob) (record : RabJob) :
    AnalysisResultEnvelope :=
  let artifact := job.inputArtifact
  let analyzers := job.analyzerResults.map .analyzer ++
    job.scannerResults.map fun item => .scanner (mapResult rawOutputs item)
  { jobId := job.jobId
    object := ⟨artifact.hashes.sha256, some artifact.hashes.blake3, some artifact.hashes.sha1,
      some artifact.hashes.md5, artifact.byteSize, some artifact.filename,
      some artifact.mediaType⟩
    profile := record.profile
    state := job.status
    completed := job.status.terminal
    analyzers := analyzers
    observations := ⟨"object_identity", .dict none⟩ :: analyzers.flatMap (·.observations)
    verdict := if job.scannerResults ≠ [] then some job.normalizedVerdict else none
    derivedObjects := job.derivedObjects
    relationships := job.relationships
    completeness := job.completeness
    extractionUsage := job.extractionUsage
    preservationContext := job.preservationContext
    submission := record
    errors := job.errors
    requestedBy := record.clientId
    verifiedSha256 := artifact.hashes.sha256
    rootVerdict := job.rootVerdict }

/-- `results`, on the two tables of the database. -/
def results (rawOutputs : String → Option (Digest 64 × ℕ)) (host : Host)
    (rabJobs : JobId → Option RabJob) (id : JobId) :
    Except RABProtocolError AnalysisResultEnvelope :=
  match host.jobs id, rabJobs id with
  | some job, some record => .ok (envelope rawOutputs job record)
  | _, _ => .error ⟨404, "NOT_FOUND", "analysis job was not found"⟩

/-! ## The verdict that is owed -/

/-- The submitted object or one of the derived ones has a scanner result. -/
def HasResults (job : ScanJob) : Prop :=
  job.scannerResults ≠ [] ∨ ∃ child ∈ job.derivedObjects, child.scannerResults ≠ []

/-- The verdict that is reported for a job matches it. -/
structure VerdictAgrees (job : ScanJob) (verdict : Option Verdict) : Prop where
  absent : verdict = none → ¬HasResults job
  present : HasResults job → verdict = some job.normalizedVerdict
  reported : ∀ value, verdict = some value → value = job.normalizedVerdict
  quarantined : job.status = .quarantined → verdict ≠ none

/-- The calls made for an adapter up to its run return, and it is available. -/
def AdapterReady (env : ScanEnv) (id : JobId) (position : ℕ) (probe : ProbeResult) : Prop :=
  probe.available = true ∧ probe.state = .probed ∧ env.fault id (.scannerStatuses position) = none ∧
    env.fault id (.saveProbed position) = none ∧ env.prepare id position = none

/-- The adapter at a position of the list is available and returns a result. -/
def ScannedBy (env : ScanEnv) (id : JobId) (item : String × ℕ) : Prop :=
  item.1 ∉ ScanService.lateStages ∧ item.1 ∉ env.genericAnalyzers ∧ item.1 ∈ env.adapters ∧
    ∃ probe result, env.probe id item.2 = .ok probe ∧ AdapterReady env id item.2 probe ∧
      env.runPrepared id item.2 = .ok result

/-- The loop over the requested scanners comes to such an adapter. -/
def Scanned (env : ScanEnv) (job : ScanJob) : Prop :=
  Meets (fun item => ScanService.ScannerReturns env job.jobId item.1 item.2)
    (ScannedBy env job.jobId) job.requestedScanners.zipIdx

/-- A queued job as `submit_stream` hands it to the worker: nothing has been found yet. -/
structure Submitted (host : Host) (job : ScanJob) : Prop extends Queued host job where
  scannerResults : job.scannerResults = []
  derivedObjects : job.derivedObjects = []

/-- `create_queued` hands out such jobs. -/
lemma submitted_of_createQueued {env : ScanEnv} {artifact : InputArtifact} {label : String}
    {requested : List String} {host host' : Host} {job : ScanJob}
    (h : ScanService.createQueued env artifact label requested host = .ok job host') :
    Submitted host' job := by
  have hend := @ScanService.createQueued_end env artifact label requested host
  rw [h] at hend
  obtain ⟨hcreated, hstaged, hqueued, ⟨applicable, rfl⟩, hnext, -⟩ := hend
  refine ⟨⟨rfl, ?_, ?_⟩, rfl, rfl⟩
  · simp only [ScanService.createQueued, ScanService.freshJobId, bind_apply, get_apply,
      modify_apply, pure_apply, hcreated, hstaged, hqueued, JobService.save_none] at h
    simp [ScanService.withJob, onHost, zoom, bind_apply, JobService.transition, ScanJob.transition,
      ScanJob.new, transitions] at h
    obtain ⟨hfields, rfl⟩ := h
    simp [Host.saved, ScanJob.new, hfields]
  · rw [ScanService.ScanState.Issued, hnext]
    exact Nat.lt_succ_self _

/-! ## Results in a run -/

section Run

open ScanService

variable {env : ScanEnv} {late : LateOutcomes env.sha256} {requested : List String}
  {source content : Bytes} {s t : ScanState} {job stored : ScanJob}

/-- The results of the submitted object are what they were. -/
def SameRoot (s t : ScanState) : Prop :=
  ScanState.Issued s → t.job.scannerResults = s.job.scannerResults ∧ ScanState.Issued t

lemma SameRoot.trans (s t u : ScanState) (hst : SameRoot s t) (htu : SameRoot t u) :
    SameRoot s u := by
  intro hs
  obtain ⟨ht, hissued⟩ := hst hs
  obtain ⟨hu, hissued⟩ := htu hissued
  exact ⟨hu.trans ht, hissued⟩

lemma sameRoot_runRecursion : Moves SameRoot (runRecursion late.stages requested source) := by
  intro s hs
  have hframe : StageFrame env.sha256 s (final (runRecursion late.stages requested source) s) :=
    runRecursion_frame hs
  refine ⟨?_, hframe.issued hs⟩
  unfold runRecursion LateOutcomes.stages
  cases late.recursive with
  | none => rfl
  | some outcome =>
      simp only [Option.map_some]
      split
      · have hresults := (outcome.frame s hs).scannerResults
        rw [← outcome.final_run s] at hresults
        cases hrun : outcome.run s with
        | error e u => rwa [final_bind_of_error hrun, ← final_of_error hrun]
        | ok a u =>
            rw [final_of_ok hrun] at hresults
            rw [final_bind_of_ok hrun]
            exact hresults
      · rfl

lemma sameRoot_runCorrelation : Moves SameRoot (runCorrelation late.stages requested) := by
  intro s hs
  have hframe : StageFrame env.sha256 s (final (runCorrelation late.stages requested) s) :=
    runCorrelation_frame hs
  refine ⟨?_, hframe.issued hs⟩
  unfold runCorrelation LateOutcomes.stages
  cases late.correlation with
  | none => rfl
  | some outcome =>
      simp only [Option.map_some]
      split
      · rw [outcome.final_run]
        exact (outcome.frame s hs).scannerResults
      · rfl

/-- What is raised behind the result of an adapter does not take it back. -/
lemma runPrepared_scanned {name : String} {position : ℕ} {previous : Option ScannerRuntimeStatus}
    {probe : ProbeResult} (s : ScanState) :
    (final (runPrepared env name position previous probe) s).job.scannerResults ≠ [] ↔
      s.job.scannerResults ≠ [] ∨ ∃ result, env.runPrepared s.job.jobId position = .ok result := by
  unfold runPrepared
  cases hrun : env.runPrepared s.job.jobId position <;>
    cases hfault : env.fault s.job.jobId (.saveScanned position) <;>
    simp [final, bind_apply, hrun, hfault, onHost, zoom, JobService.saveScannerStatus]

/-- An adapter that is ready is run, whatever its clean-up does afterwards. -/
lemma final_runAdapter {name : String} {position : ℕ} {probe : ProbeResult}
    (hprobe : env.probe s.job.jobId position = .ok probe)
    (hready : AdapterReady env s.job.jobId position probe) :
    ∃ previous host, final (runAdapter env name position) s =
      final (runPrepared env name position previous probe) ⟨s.job, host⟩ := by
  obtain ⟨havailable, hprobed, hstatuses, hsave, hprepare⟩ := hready
  set previous := s.host.scannerRuntime name with hprevious
  set probing : ScannerRuntimeStatus :=
    { scannerId := name
      qualificationState :=
        if previous.map (·.qualificationState) = some .qualified then .qualified else .probed
      installedVersion := probe.version
      detail := probe.detail } with hprobing
  refine ⟨previous, { s.host with
    scannerRuntime := Function.update s.host.scannerRuntime name probing }, ?_⟩
  have hrun : runAdapter env name position s =
      tryFinally (runPrepared env name position previous probe)
        (raiseIf (env.cleanup s.job.jobId position)) ⟨s.job, { s.host with
          scannerRuntime := Function.update s.host.scannerRuntime name probing }⟩ := by
    simp [runAdapter, bind_apply, hprobe, havailable, hprobed, hstatuses, hsave, hprepare, onHost,
      zoom, JobService.scannerStatus, JobService.saveScannerStatus, hprevious, hprobing]
  have hcleanup : ∀ u : ScanState, final (raiseIf (env.cleanup s.job.jobId position)) u = u := by
    intro u
    cases env.cleanup s.job.jobId position <;> rfl
  rw [← hcleanup (final (runPrepared _ _ _ _ _) _), ← final_tryFinally]
  simp only [final, hrun]

/-- One that is not adds no result. -/
lemma final_runAdapter_not_ready {name : String} {position : ℕ} {probe : ProbeResult}
    (hprobe : env.probe s.job.jobId position = .ok probe)
    (hready : ¬AdapterReady env s.job.jobId position probe) :
    (final (runAdapter env name position) s).job.scannerResults = s.job.scannerResults := by
  unfold runAdapter
  by_cases havailable : probe.available = true ∧ probe.state = .probed
  · obtain ⟨ha, hp⟩ := havailable
    cases hstatuses : env.fault s.job.jobId (.scannerStatuses position) with
    | some e =>
        simp [final, bind_apply, hprobe, ha, hp, hstatuses, onHost, zoom, JobService.scannerStatus]
    | none =>
        cases hsave : env.fault s.job.jobId (.saveProbed position) with
        | some e =>
            simp [final, bind_apply, hprobe, ha, hp, hstatuses, hsave, onHost, zoom,
              JobService.scannerStatus, JobService.saveScannerStatus]
        | none =>
            cases hprepare : env.prepare s.job.jobId position with
            | some e =>
                simp [final, bind_apply, hprobe, ha, hp, hstatuses, hsave, hprepare, onHost, zoom,
                  JobService.scannerStatus, JobService.saveScannerStatus]
            | none => exact absurd ⟨ha, hp, hstatuses, hsave, hprepare⟩ hready
  · have hskip : (!probe.available || decide (probe.state ≠ .probed)) = true := by
      cases hcase : probe.available <;> simp_all
    simp only [final, bind_apply, get_apply, hprobe, lift_ok, hskip, if_true, updateJob_apply]
    rfl

lemma runScanner_scanned (name : String) (position : ℕ) (s : ScanState) :
    (final (runScanner env name position) s).job.scannerResults ≠ [] ↔
      s.job.scannerResults ≠ [] ∨ ScannedBy env s.job.jobId (name, position) := by
  unfold runScanner ScannedBy
  by_cases hlate : name ∈ lateStages
  · simp [hlate, final]
  by_cases hgeneric : name ∈ env.genericAnalyzers
  · simp only [hlate, hgeneric, if_false, if_true, not_true_eq_false, false_and, and_false,
      or_false]
    unfold runGeneric
    cases hanalyze : env.analyze s.job.jobId position with
    | error exc => simp [final, tryCatch_apply, bind_apply, hanalyze, ScanJob.addError]
    | ok result =>
        cases hfault : env.fault s.job.jobId (.saveAnalyzed position) <;>
          simp [final, tryCatch_apply, bind_apply, hanalyze, hfault, AVBox.onHost, zoom,
            JobService.saveScannerStatus, ScanJob.addError]
  by_cases hadapter : name ∈ env.adapters
  · simp only [hlate, hgeneric, hadapter, if_false, if_true, not_false_eq_true, true_and]
    cases hprobe : env.probe s.job.jobId position with
    | error e => simp [runAdapter, final, bind_apply, hprobe]
    | ok probe =>
        by_cases hready : AdapterReady env s.job.jobId position probe
        · obtain ⟨previous, host, hfinal⟩ :=
            @final_runAdapter env s name position probe hprobe hready
          rw [hfinal, runPrepared_scanned]
          simp [hready]
        · rw [final_runAdapter_not_ready hprobe hready]
          simp [hready]
  · simp [hlate, hgeneric, hadapter, final, ScanJob.addError]

/-- After the scanners nothing changes whether the submitted object has results. -/
lemma analyze_scanned (hissued : ScanState.Issued s) (hempty : s.job.scannerResults = []) :
    (final (analyze env late.stages s.job.requestedScanners source) s).job.scannerResults ≠ [] ↔
      Scanned env s.job := by
  have hscan := @runScanners_iff env (fun job => job.scannerResults ≠ []) (ScannedBy env)
    runScanner_scanned s.job.requestedScanners s
  simp only [hempty, ne_eq, not_true_eq_false, false_or] at hscan
  have hlate : Moves SameRoot (do
      updateJob takeRootVerdict
      runRecursion late.stages s.job.requestedScanners source
      runCorrelation late.stages s.job.requestedScanners) := by
    refine Moves.bind SameRoot.trans (fun t ht => ⟨rfl, ht⟩) fun _ => ?_
    exact Moves.bind SameRoot.trans sameRoot_runRecursion fun _ => sameRoot_runCorrelation
  have hframe : StageFrame env.sha256 s (final (runScanners env s.job.requestedScanners) s) :=
    .of_scanners (runScanners_moves env _ s)
  rw [Scanned, ← hscan]
  unfold analyze
  cases hrun : runScanners env s.job.requestedScanners s with
  | error e t => rw [final_bind_of_error hrun, final_of_error hrun]
  | ok a t =>
      rw [final_of_ok hrun] at hframe
      rw [final_bind_of_ok hrun, final_of_ok hrun, (hlate t (hframe.issued hissued)).1]

/-- Once the stages have returned, a positive verdict is that of a result. -/
lemma analyze_hasResults (hissued : ScanState.Issued s)
    (hrun : analyze env late.stages requested source s = .ok () t)
    (hpositive : t.job.normalizedVerdict.positive = true) : HasResults t.job := by
  obtain ⟨⟨⟩, u, hscan, hlate⟩ := bind_eq_ok.1 hrun
  rw [updateJob_bind_apply] at hlate
  obtain ⟨⟨⟩, v, hrec, hcorr⟩ := bind_eq_ok.1 hlate
  have hframe : StageFrame env.sha256 s u := by
    rw [← final_of_ok hscan]
    exact .of_scanners (runScanners_moves env requested s)
  have hu : ScanState.Issued ⟨takeRootVerdict u.job, u.host⟩ := hframe.issued hissued
  have hrecursion : StageFrame env.sha256 _ v := final_of_ok hrec ▸ runRecursion_frame hu
  obtain ⟨hresults, hverdict, hderived⟩ := runCorrelation_eq_ok (hrecursion.issued hu) hcorr
  have hmem : ∀ result, result ∈ v.job.derivedObjects.flatMap (·.scannerResults) →
      ∃ child ∈ t.job.derivedObjects, child.scannerResults ≠ [] := by
    intro result hresult
    rw [List.flatMap_def, ← hderived, ← List.flatMap_def] at hresult
    obtain ⟨child, hchild, hresult⟩ := List.mem_flatMap.1 hresult
    exact ⟨child, hchild, List.ne_nil_of_mem hresult⟩
  rw [hverdict] at hpositive
  rcases runRecursion_eq_ok hu hrec with rfl | ⟨-, haggregate⟩
  · obtain ⟨result, hresult, -⟩ := aggregateVerdict_positive.1 hpositive
    exact .inl (hresults ▸ List.ne_nil_of_mem hresult)
  · rw [haggregate] at hpositive
    obtain ⟨result, hresult, -⟩ := aggregateVerdict_positive.1 hpositive
    rcases List.mem_append.1 hresult with hroot | hchild
    · exact .inl (hresults ▸ List.ne_nil_of_mem hroot)
    · exact .inr (hmem result hchild)

/-! ## What the rows of the job hold -/

/-- What a job in memory or in its row tells about the results of the run. -/
structure Kept (env : ScanEnv) (job stored : ScanJob) : Prop where
  jobId : stored.jobId = job.jobId
  results : (stored.scannerResults = [] ∧ stored.derivedObjects = []) ∨
    (stored.scannerResults ≠ [] ↔ Scanned env job)
  quarantined : stored.status = .quarantined → HasResults stored

lemma Kept.of_same {stored' : ScanJob} (h : Kept env job stored)
    (hid : stored'.jobId = stored.jobId) (hscanner : stored'.scannerResults = stored.scannerResults)
    (hderived : stored'.derivedObjects = stored.derivedObjects)
    (hstatus : stored'.status = .quarantined → HasResults stored) : Kept env job stored' where
  jobId := hid.trans h.jobId
  results := by rw [hscanner, hderived]; exact h.results
  quarantined hquarantined := by
    rw [HasResults, hscanner, hderived]
    exact hstatus hquarantined

/-- The row of the job tells it. -/
def RowKept (env : ScanEnv) (job : ScanJob) (host : Host) : Prop :=
  ∀ stored, host.jobs job.jobId = some stored → Kept env job stored

/-- The job in memory and its row both tell it. -/
structure Sound (env : ScanEnv) (job : ScanJob) (s : ScanState) : Prop where
  memory : Kept env job s.job
  row : RowKept env job s.host

lemma Kept.saved {current : ScanJob} (h : Kept env job current) (host : Host) :
    Sound env job ⟨current, host.saved current⟩ := by
  refine ⟨h, fun stored hstored => ?_⟩
  rw [← h.jobId, Host.saved_jobs_self] at hstored
  obtain rfl := Option.some.inj hstored
  exact h

lemma sound_fail (e : Exc) (h : Sound env job s) : Sound env job (final (fail env e) s) := by
  have hadded : Kept env job (s.job.addError e.text) :=
    h.memory.of_same rfl rfl rfl fun hstatus => h.memory.quarantined hstatus
  have hfailed : Kept env job { s.job.addError e.text with status := .failed } :=
    h.memory.of_same rfl rfl rfl fun hstatus => (by cases hstatus)
  unfold fail
  rw [final_bind_of_ok (get_apply s), final_bind_of_ok (updateJob_apply _ s)]
  by_cases hmem : JobStatus.failed ∈ transitions (s.job.addError e.text).status
  · have hrun := @JobService.transition_of_mem (env.fault s.job.jobId .saveFailed) .failed
      ⟨s.job.addError e.text, s.host⟩ hmem
    cases hfault : env.fault s.job.jobId .saveFailed with
    | none =>
        rw [hfault] at hrun
        rw [final_of_ok hrun]
        exact hfailed.saved s.host
    | some e' =>
        rw [hfault] at hrun
        rw [final_of_error hrun]
        exact ⟨hfailed, h.row⟩
  · rw [final_of_error (@JobService.transition_of_not_mem (env.fault s.job.jobId .saveFailed)
      .failed ⟨s.job.addError e.text, s.host⟩ hmem)]
    exact ⟨hadded, h.row⟩

lemma sound_finish (h : Sound env job s) : Sound env job (final (finish env) s) := by
  obtain ⟨hjob, -, hclean, hunclean⟩ := @finish_row env s
  by_cases hcase : FinishClean env s.job.jobId
  · have hsaved := h.memory.saved s.host
    exact ⟨by rw [hjob]; exact hsaved.memory, by rw [hclean hcase]; exact hsaved.row⟩
  · exact ⟨by rw [hjob]; exact h.memory, by rw [hunclean hcase]; exact h.row⟩

/-- A job that has not been run. -/
lemma Submitted.kept {host : Host} (h : Submitted host job) : Kept env job job where
  jobId := rfl
  results := .inl ⟨h.scannerResults, h.derivedObjects⟩
  quarantined hquarantined := by
    rw [h.status] at hquarantined
    cases hquarantined

lemma Submitted.rowKept {host : Host} (h : Submitted host job) : RowKept env job host := by
  intro stored hrow
  obtain rfl := Option.some.inj (h.row.symm.trans hrow)
  exact h.kept

/-- A job is put in quarantine for a result of its own or of a derived object. -/
lemma sound_preserve (hstatus : s.job.status = .running) (h : Sound env job s)
    (hresults : s.job.normalizedVerdict.positive = true → HasResults s.job) :
    Sound env job (final (preserve env content) s) := by
  cases hpositive : s.job.normalizedVerdict.positive with
  | true =>
      have hpreserve := @preserve_of_positive env content s hstatus hpositive
      have hjobs := @admission_jobs env content s.job s.host
      cases hadmission : admission env content s.job s.host with
      | error e host =>
          rw [hadmission] at hpreserve
          rw [final_of_error hadmission] at hjobs
          rw [final_of_error hpreserve]
          exact ⟨h.memory, by rw [RowKept, hjobs]; exact h.row⟩
      | ok path host =>
          have hdecided : Kept env job
              (decided s.job s!"local-quarantine:{path.val}" .quarantined) :=
            h.memory.of_same rfl rfl rfl fun _ => hresults hpositive
          rw [hadmission] at hpreserve
          rw [final_of_ok hadmission] at hjobs
          cases hfault : env.fault s.job.jobId .saveOutcome with
          | none =>
              rw [hfault] at hpreserve
              rw [final_of_ok hpreserve]
              exact hdecided.saved host
          | some e =>
              rw [hfault] at hpreserve
              rw [final_of_error hpreserve]
              exact ⟨hdecided, by rw [RowKept, hjobs]; exact h.row⟩
  | false =>
      have hpreserve := @preserve_of_not_positive env content s hstatus hpositive
      have hdecided : Kept env job (decided s.job "transient-bytes-removed" .complete) :=
        h.memory.of_same rfl rfl rfl fun hcomplete => (by cases hcomplete)
      cases hfault : env.fault s.job.jobId .saveOutcome with
      | none =>
          rw [hfault] at hpreserve
          rw [final_of_ok hpreserve]
          exact hdecided.saved s.host
      | some e =>
          rw [hfault] at hpreserve
          rw [final_of_error hpreserve]
          exact ⟨hdecided, h.row⟩

/-- The stages leave the job RUNNING, with its results in memory and none in its row. -/
lemma sound_analyze (hs : Submitted s.host s.job) :
    Sound env s.job (final (analyze env late.stages s.job.requestedScanners source) (running s)) ∧
      (final (analyze env late.stages s.job.requestedScanners source)
        (running s)).job.status = .running := by
  have hissued : ScanState.Issued (running s) := hs.issued
  have hframe : StageFrame env.sha256 (running s)
      (final (analyze env late.stages s.job.requestedScanners source) (running s)) :=
    analyze_frame hissued
  have hscanned := @analyze_scanned env late source (running s) hissued hs.scannerResults
  have hstatus : (final (analyze env late.stages s.job.requestedScanners source)
      (running s)).job.status = .running := hframe.status
  refine ⟨⟨⟨hframe.jobId, .inr hscanned, fun hquarantined => ?_⟩, fun stored hrow => ?_⟩, hstatus⟩
  · rw [hstatus] at hquarantined
    cases hquarantined
  · rw [hframe.rows s.job.jobId hissued] at hrow
    obtain rfl := Option.some.inj ((Host.saved_jobs_self _ _).symm.trans hrow)
    exact ⟨rfl, .inl ⟨hs.scannerResults, hs.derivedObjects⟩,
      fun hquarantined => (by cases hquarantined)⟩

lemma sound_attempt (hs : Submitted s.host s.job) :
    Sound env s.job (final
      (attempt env late.stages s.job.requestedScanners source (submitted s.job)) (running s)) := by
  obtain ⟨hsound, hstatus⟩ := @sound_analyze env late source s hs
  unfold attempt
  cases hanalyze : analyze env late.stages s.job.requestedScanners source (running s) with
  | error e t =>
      rw [final_of_error hanalyze] at hsound
      rwa [final_bind_of_error hanalyze]
  | ok a t =>
      rw [final_of_ok hanalyze] at hsound hstatus
      rw [final_bind_of_ok hanalyze]
      have hsame := @checkSource_state env (submitted s.job) t
      cases hcheck : checkSource env (submitted s.job) t with
      | error e u =>
          rw [final_of_error hcheck] at hsame
          rwa [final_bind_of_error hcheck, hsame]
      | ok content u =>
          rw [final_of_ok hcheck] at hsame
          rw [final_bind_of_ok hcheck, hsame]
          have hissued : ScanState.Issued (running s) := hs.issued
          exact sound_preserve hstatus hsound (analyze_hasResults hissued hanalyze)

/-- A whole run of a submitted job, however it ends. -/
lemma sound_execute (hs : Submitted s.host s.job) :
    Sound env s.job (final (execute env late.stages source) s) := by
  by_cases hsaved : env.fault s.job.jobId .saveRunning = none
  · obtain ⟨-, hfinal⟩ := @execute_via_guarded env source s late.stages hs.status hsaved
    rw [hfinal]
    refine sound_finish ?_
    have hattempt := @sound_attempt env late source s hs
    cases hrun : attempt env late.stages s.job.requestedScanners source (submitted s.job)
        (running s) with
    | ok a t =>
        have hguarded : ScanService.guarded env late.stages source s.job (running s) = .ok a t := by
          rw [ScanService.guarded, tryCatch_apply, hrun]
        rwa [final_of_ok hguarded, ← final_of_ok hrun]
    | error e t =>
        have hguarded : ScanService.guarded env late.stages source s.job (running s) =
            fail env e t := by
          rw [ScanService.guarded, tryCatch_apply, hrun]
        rw [final_of_error hrun] at hattempt
        rw [final, hguarded]
        exact sound_fail e hattempt
  · obtain ⟨e, hrun⟩ := @execute_of_not_saved env source s late.stages hs.status hsaved
    rw [final_of_error hrun]
    exact ⟨hs.kept.of_same rfl rfl rfl fun hquarantined => (by cases hquarantined), hs.rowKept⟩

/-! ## The rows in a run of the worker -/

variable {wenv : WorkerEnv} {items : List (Option ScanJob)} {w : WorkerState}

lemma markFailed_kept {e : Exc} {current : ScanJob} (h : Kept env job stored)
    (hmark : markFailed e stored = .ok current) : Kept env job current := by
  unfold markFailed at hmark
  simp only at hmark
  split at hmark
  · obtain ⟨-, rfl⟩ := ScanJob.transition_eq_ok.1 hmark
    exact h.of_same rfl rfl rfl fun hquarantined => (by cases hquarantined)
  · obtain rfl := Except.ok.inj hmark
    exact h.of_same rfl rfl rfl h.quarantined

lemma rowKept_handleFailure {e : Exc} (hid : t.job.jobId = job.jobId)
    (hstored : t.host.jobs t.job.jobId = some stored) (h : RowKept env job t.host) :
    RowKept env job (final (handleFailure wenv e) t).host := by
  have hrun := @handleFailure_apply wenv t e stored hstored
  cases hget : wenv.getCurrent t.job.jobId with
  | some e' =>
      rw [hget] at hrun
      rwa [final_of_error hrun]
  | none =>
      cases hmark : markFailed e stored with
      | error e' =>
          rw [hget, hmark] at hrun
          rwa [final_of_error hrun]
      | ok current =>
          cases hsave : wenv.saveCurrent t.job.jobId with
          | some e' =>
              rw [hget, hmark, hsave] at hrun
              rwa [final_of_error hrun]
          | none =>
              rw [hget, hmark, hsave] at hrun
              rw [final_of_ok hrun]
              have hcurrent := markFailed_kept (h stored (hid ▸ hstored)) hmark
              exact (hcurrent.saved t.host).row

/-- One item, whether or not its run fails. -/
lemma rowKept_runItem {host : Host} (hs : Submitted host job) :
    RowKept wenv.scan job (final (runItem wenv) ⟨job, host⟩).host := by
  have hsound : Sound wenv.scan job (final (runJob wenv job.jobId) ⟨job, host⟩) :=
    @sound_execute wenv.scan wenv.late _ ⟨job, host⟩ hs
  rcases @runItem_apply wenv ⟨job, host⟩ with ⟨-, -, hrun⟩ | ⟨-, e, hrun⟩
  · rw [final_of_ok hrun]
    exact hsound.row
  · obtain ⟨statuses, stored, hrow, -⟩ := @runJob_row wenv job host hs.toQueued
    have hfinal : final (runItem wenv) ⟨job, host⟩ =
        final (handleFailure wenv e) (final (runJob wenv job.jobId) ⟨job, host⟩) := by
      rw [final, hrun]
      rfl
    rw [hfinal]
    have hid := hsound.memory.jobId
    exact rowKept_handleFailure hid (by rw [hid]; exact hrow) hsound.row

lemma serve_host (job : ScanJob) (w : WorkerState) :
    (final (serve wenv job) w).host = (final (runItem wenv) ⟨job, w.host⟩).host := by
  have hclose : ∀ v : WorkerState, (final (closeItem wenv job.jobId) v).host = v.host := by
    intro v
    unfold closeItem
    cases hremove : wenv.removeUpload job.jobId <;> simp [final, bind_apply]
  rw [serve, final_tryFinally, hclose]
  unfold final zoom
  cases runItem wenv ⟨job, w.host⟩ <;> rfl

/-- The rows behind a run of the worker that started in `w`. -/
structure RowsKept (env : ScanEnv) (items : List (Option ScanJob)) (w w' : WorkerState) : Prop where
  nextJobId : w.host.nextJobId ≤ w'.host.nextJobId
  others : ∀ id < w.host.nextJobId, id ∉ itemIds items → w'.host.jobs id = w.host.jobs id
  kept : ∀ job, some job ∈ items → RowKept env job w'.host

/-- Serving an item keeps the others submitted. -/
lemma submitted_after_serve (hs : Submitted w.host job) {other : ScanJob}
    (hother : Submitted w.host other) (hne : other.jobId ≠ job.jobId) :
    Submitted (final (serve wenv job) w).host other := by
  have hothers := @runItem_others wenv job w.host hs.toQueued
  rw [serve_host]
  exact
    { status := hother.status
      row := (hothers.rows _ hother.issued hne).trans hother.row
      issued := Nat.lt_of_lt_of_le hother.issued hothers.nextJobId
      scannerResults := hother.scannerResults
      derivedObjects := hother.derivedObjects }

/-- Every run of the worker, also one that an exception leaves. -/
lemma worker_rowsKept (items : List (Option ScanJob)) (w : WorkerState)
    (hsubmitted : ∀ job, some job ∈ items → Submitted w.host job)
    (hdistinct : (itemIds items).Nodup) :
    RowsKept wenv.scan items w (final (worker wenv items) w) := by
  induction items generalizing w with
  | nil => exact ⟨Nat.le_refl _, fun _ _ _ => rfl, by simp⟩
  | cons item items ih =>
      cases item with
      | none =>
          have hkept : ∀ job, some job ∈ none :: items → RowKept wenv.scan job w.host :=
            fun job hmem => (hsubmitted job hmem).rowKept
          exact ⟨Nat.le_refl _, fun _ _ _ => rfl, hkept⟩
      | some job =>
          have hs := hsubmitted job List.mem_cons_self
          have hothers := @runItem_others wenv job w.host hs.toQueued
          have hrow := @rowKept_runItem job wenv w.host hs
          rw [← serve_host] at hrow
          obtain ⟨hnotin, hnodup⟩ := List.nodup_cons.1 hdistinct
          have hne : ∀ other, some other ∈ items → other.jobId ≠ job.jobId := by
            intro other hmem heq
            have hin := mem_itemIds hmem
            rw [heq] at hin
            exact hnotin hin
          have hrest : ∀ other, some other ∈ items →
              Submitted (final (serve wenv job) w).host other := fun other hmem =>
            submitted_after_serve hs (hsubmitted other (List.mem_cons_of_mem _ hmem))
              (hne other hmem)
          have hnext : w.host.nextJobId ≤ (final (serve wenv job) w).host.nextJobId := by
            rw [serve_host]
            exact hothers.nextJobId
          have hsame : ∀ id < w.host.nextJobId, id ≠ job.jobId →
              (final (serve wenv job) w).host.jobs id = w.host.jobs id := by
            rw [serve_host]
            exact hothers.rows
          have hids : ∀ id, id ∉ itemIds (some job :: items) →
              id ≠ job.jobId ∧ id ∉ itemIds items :=
            fun id hid => not_or.1 (mt List.mem_cons.2 hid)
          unfold worker
          cases hserve : serve wenv job w with
          | error e u =>
              rw [final_of_error hserve] at hrow hrest hnext hsame
              rw [final_bind_of_error hserve]
              refine ⟨hnext, fun id hid hne => hsame id hid (hids id hne).1, fun other hmem => ?_⟩
              rcases List.mem_cons.1 hmem with hfirst | hmem
              · rwa [Option.some.inj hfirst]
              · exact (hrest other hmem).rowKept
          | ok a u =>
              rw [final_of_ok hserve] at hrow hrest hnext hsame
              rw [final_bind_of_ok hserve]
              obtain ⟨hnext', hothers', hkept⟩ := ih u hrest hnodup
              refine ⟨Nat.le_trans hnext hnext', fun id hid hne => ?_, fun other hmem => ?_⟩
              · rw [hothers' id (Nat.lt_of_lt_of_le hid hnext) (hids id hne).2]
                exact hsame id hid (hids id hne).1
              · rcases List.mem_cons.1 hmem with hfirst | hmem
                · rw [Option.some.inj hfirst]
                  unfold RowKept
                  rwa [hothers' _ (Nat.lt_of_lt_of_le hs.issued hnext) hnotin]
                · exact hkept other hmem

end Run

/-! ## The reported verdict -/

lemma Kept.verdict_iff {env : ScanEnv} {job stored : ScanJob} (h : Kept env job stored)
    (rawOutputs : String → Option (Digest 64 × ℕ)) (record : RabJob) :
    VerdictAgrees stored (envelope rawOutputs stored record).verdict ↔
      Scanned env job ∨ ∀ child ∈ stored.derivedObjects, child.scannerResults = [] := by
  have hverdict : (envelope rawOutputs stored record).verdict =
      if stored.scannerResults ≠ [] then some stored.normalizedVerdict else none := rfl
  by_cases hempty : stored.scannerResults = []
  · rw [if_neg (not_not.2 hempty)] at hverdict
    have hresults : HasResults stored ↔
        ¬∀ child ∈ stored.derivedObjects, child.scannerResults = [] := by
      simp [HasResults, hempty]
    constructor
    · intro hagrees
      exact .inr (not_not.1 (mt hresults.2 (hagrees.absent hverdict)))
    · intro hcondition
      have hchildren : ∀ child ∈ stored.derivedObjects, child.scannerResults = [] := by
        rcases hcondition with hscanned | hchildren
        · rcases h.results with ⟨-, hderived⟩ | hiff
          · simp [hderived]
          · exact absurd hempty (hiff.2 hscanned)
        · exact hchildren
      have hnone : ¬HasResults stored := fun hhas => hresults.1 hhas hchildren
      exact ⟨fun _ => hnone, fun hhas => absurd hhas hnone, by simp [hverdict],
        fun hstatus => absurd (h.quarantined hstatus) hnone⟩
  · rw [if_pos hempty] at hverdict
    rw [hverdict]
    refine iff_of_true ⟨by simp, fun _ => rfl, by simp, by simp⟩ (.inl ?_)
    rcases h.results with ⟨hnone, -⟩ | hiff
    · exact absurd hnone hempty
    · exact hiff.1 hempty

/-- In every state that the worker leaves behind, the verdict that is reported for a finished job
matches it exactly when an adapter has scanned the submitted object or none of the derived ones
has a result. -/
theorem results_verdict_iff (env : WorkerEnv) (rawOutputs : String → Option (Digest 64 × ℕ))
    (rabJobs : JobId → Option RabJob) (items : List (Option ScanJob)) (w : WorkerState)
    (hsubmitted : ∀ job, some job ∈ items → Submitted w.host job)
    (hdistinct : (itemIds items).Nodup) {job finished : ScanJob} {record : RabJob}
    (hitem : some job ∈ items)
    (hrow : (final (worker env items) w).host.jobs job.jobId = some finished)
    (hfinished : finished.status.terminal = true) (hrecord : rabJobs job.jobId = some record) :
    ∃ reply, results rawOutputs (final (worker env items) w).host rabJobs job.jobId = .ok reply ∧
      reply.completed = true ∧ (VerdictAgrees finished reply.verdict ↔
        Scanned env.scan job ∨ ∀ child ∈ finished.derivedObjects, child.scannerResults = []) := by
  have hkept := (worker_rowsKept items w hsubmitted hdistinct).kept job hitem finished hrow
  refine ⟨envelope rawOutputs finished record, ?_, hfinished, hkept.verdict_iff rawOutputs record⟩
  rw [results, hrow, hrecord]

/-! ## A match in the submitted object, and one in its member only -/

/-- A worker whose first adapter finds a match in the empty file; the other one is missing. -/
def matchWorker : WorkerEnv where
  scan := ScanService.matchEnv (.ok ⟨false, "yara is not installed", .notInstalled, none⟩)
  late := ⟨none, none⟩
  upload := fun _ => []
  getCompleted := fun _ => none
  getCurrent := fun _ => none
  saveCurrent := fun _ => none
  removeUpload := fun _ => none

/-- The job for it, and the tables it is in. -/
def matchJob : ScanJob := (ScanService.queuedJob ["clamav", "yara"]).job

def matchState : WorkerState :=
  { plainState with
    host := { plainState.host with jobs := fun id => if id = 0 then some matchJob else none } }

def clientRecord : RabJob := ⟨"client", "request-1", "standard@1"⟩

/-- The match is reported. -/
theorem match_reported : ∃ finished reply,
    (final (worker matchWorker [some matchJob, none]) matchState).host.jobs matchJob.jobId =
        some finished ∧
      results (fun _ => none) (final (worker matchWorker [some matchJob, none]) matchState).host
        (fun _ => some clientRecord) matchJob.jobId = .ok reply ∧
      finished.status = .quarantined ∧ VerdictAgrees finished reply.verdict := by
  have hsubmitted : ∀ job, some job ∈ [some matchJob, none] → Submitted matchState.host job := by
    intro job hmem
    simp only [List.mem_cons, Option.some.injEq, reduceCtorEq, List.not_mem_nil, or_false] at hmem
    subst hmem
    exact ⟨⟨rfl, rfl, Nat.zero_lt_one⟩, rfl, rfl⟩
  have hrun : ((final (worker matchWorker [some matchJob, none]) matchState).host.jobs
      matchJob.jobId).map (·.status) = some .quarantined := by
    decide +kernel
  obtain ⟨finished, hrow, hstatus⟩ := Option.map_eq_some_iff.1 hrun
  have hscanned : Scanned matchWorker.scan matchJob :=
    ⟨[], ("clamav", 0), [("yara", 1)], rfl, by simp,
      by decide, by decide, by decide, _, _, rfl, ⟨rfl, rfl, rfl, rfl, rfl⟩, rfl⟩
  have hverdict := results_verdict_iff matchWorker (fun _ => none) (fun _ => some clientRecord)
    [some matchJob, none] matchState hsubmitted (by decide) List.mem_cons_self hrow
    (by rw [hstatus]; rfl) rfl
  obtain ⟨reply, hreply, -, hagrees⟩ := hverdict
  exact ⟨finished, reply, hrow, hreply, hstatus, hagrees.2 (.inl hscanned)⟩

/-- ClamAV reloads its signatures while the submitted file is scanned, and finds a match in its
member. -/
def infectedEnv : ScanEnv :=
  { ScanService.bareEnv with
    adapters := ["clamav"]
    probe := fun id _ =>
      if id = 0 then .ok ⟨false, "clamd does not answer", .installed, none⟩
      else .ok ⟨true, "ClamAV 1.4", .probed, some "1.4"⟩
    runPrepared := fun _ _ =>
      .ok ⟨"clamav", .malicious, "raw-output/clamav-1", some "1.4", none, none⟩ }

/-- The submission of a compressed letter to be scanned and extracted. -/
def infectedSubmission : ScanState :=
  { ScanService.letterSubmission with
    job := { ScanService.letterSubmission.job with requestedScanners := ["clamav", "container"] } }

/-- What its run leaves on the host. -/
def infectedHost : Host :=
  (final (ScanService.execute infectedEnv (ScanService.serviceStages infectedEnv
    ScanService.letterEnv (ScanService.providerEnv 1) 1) ScanService.compressedLetter)
    infectedSubmission).host

/-- The job is stored as QUARANTINED for the match in the member, and no verdict is reported. -/
theorem quarantined_without_verdict : ∃ finished reply,
    infectedHost.jobs 0 = some finished ∧ finished.status = .quarantined ∧
      results (fun _ => none) infectedHost (fun _ => some clientRecord) 0 = .ok reply ∧
      reply.verdict = none ∧ ¬VerdictAgrees finished reply.verdict := by
  have hrun : (infectedHost.jobs 0).map (fun job => (job.status, job.scannerResults)) =
      some (.quarantined, []) := by
    decide +kernel
  obtain ⟨finished, hrow, hfinished⟩ := Option.map_eq_some_iff.1 hrun
  obtain ⟨hstatus, hresults⟩ := Prod.mk.inj hfinished
  have hverdict : (envelope (fun _ => none) finished clientRecord).verdict = none :=
    if_neg (not_not.2 hresults)
  refine ⟨finished, _, hrow, hstatus, by rw [results, hrow], hverdict, fun hagrees => ?_⟩
  exact hagrees.quarantined hstatus hverdict

end RABService

end AVBox
