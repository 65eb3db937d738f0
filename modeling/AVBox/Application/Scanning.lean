import AVBox.Preservation.Service

/-!
# Running a job

`ScanService` of `application/scanning.py`.  What lies outside AVBox, or may fail, is an outcome
in `ScanEnv`, given for each job and each position in its list of requested scanners: what a
generic analyzer or an adapter returns or raises, which database and filesystem calls fail, and
what the source file holds when it is read again.

`executeQueued` takes its two late stages, the recursive analyzer and the correlation service, as
programs (`Stages`): the service is built first and they are attached to it afterwards, and a
child job runs through `executeQueued` again.
-/

namespace AVBox

open Program

/-! ## The environment -/

/-- The database and filesystem calls of one job that may fail. -/
inductive Site
  | saveCreated
  | saveStaged
  | saveQueued
  | saveRunning
  /-- `save_scanner_status` after a generic analyzer. -/
  | saveAnalyzed (position : ℕ)
  /-- `scanner_statuses` before an adapter runs. -/
  | scannerStatuses (position : ℕ)
  /-- `save_scanner_status` after a probe. -/
  | saveProbed (position : ℕ)
  /-- `save_scanner_status` after an adapter ran. -/
  | saveScanned (position : ℕ)
  /-- The save of the transition to QUARANTINED or COMPLETE. -/
  | saveOutcome
  /-- The save of the transition to FAILED. -/
  | saveFailed
  /-- `shutil.rmtree` of the staging directory of the job. -/
  | removeStaging
  /-- The last save, in the `finally` clause. -/
  | saveFinal
  deriving DecidableEq, Repr

structure ProbeResult where
  available : Bool
  detail : String
  state : QualificationState
  version : Option String
  deriving DecidableEq, Repr

/-- The outcomes of the calls that leave AVBox. -/
structure ScanEnv where
  /-- The names of the configured adapters and generic analyzers. -/
  adapters : List String
  genericAnalyzers : List String
  analyze : JobId → ℕ → Except Exc AnalyzerResult
  probe : JobId → ℕ → Except Exc ProbeResult
  prepare : JobId → ℕ → Option Exc
  runPrepared : JobId → ℕ → Except Exc ScannerResult
  cleanup : JobId → ℕ → Option Exc
  fault : JobId → Site → Option Exc
  admitFault : JobId → AdmitSite → Option Exc
  /-- What reading the source of a job again yields, after its stages have run. -/
  sourceAfter : JobId → Except Exc Bytes
  sha256 : Bytes → Digest 64

/-- The stages that are attached to the service after it is built. -/
structure Stages where
  recursiveAnalyzer : Option (Bytes → EStateM Exc ScanState Unit)
  correlationService : Option (EStateM Exc ScanState Unit)

/-! ## Verdicts -/

/-- Matches always win, and errors prevent an all-clean claim. -/
def aggregateVerdict (results : List ScannerResult) : Verdict :=
  let verdicts := results.map (·.normalizedVerdict)
  if .malicious ∈ verdicts then .malicious
  else if .pua ∈ verdicts then .pua
  else if .suspicious ∈ verdicts then .suspicious
  else if .error ∈ verdicts then
    if ∀ verdict ∈ verdicts, verdict = .error then .error else .unknown
  else if .clean ∈ verdicts then .clean
  else if .unknown ∈ verdicts then .unknown
  else if .unsupported ∈ verdicts then .unsupported
  else .notScanned

/-- Behind the three positive verdicts no result can make the aggregate positive. -/
lemma aggregateVerdict_of_no_match {results : List ScannerResult}
    (h : ∀ result ∈ results, result.normalizedVerdict.positive = false) :
    (aggregateVerdict results).positive = false := by
  have hnot : ∀ v : Verdict, v.positive = true → v ∉ results.map (·.normalizedVerdict) := by
    intro v hv hmem
    obtain ⟨result, hresult, rfl⟩ := List.mem_map.1 hmem
    simp [h result hresult] at hv
  unfold aggregateVerdict
  simp only [hnot .malicious rfl, hnot .pua rfl, hnot .suspicious rfl, if_false]
  split_ifs <;> rfl

/-- A match wins over every other result. -/
lemma aggregateVerdict_of_match {results : List ScannerResult} {result : ScannerResult}
    (hmem : result ∈ results) (h : result.normalizedVerdict.positive = true) :
    (aggregateVerdict results).positive = true := by
  have hverdict : result.normalizedVerdict ∈ results.map (·.normalizedVerdict) :=
    List.mem_map.2 ⟨result, hmem, rfl⟩
  unfold aggregateVerdict
  by_cases hm : Verdict.malicious ∈ results.map (·.normalizedVerdict)
  · simp [hm, Verdict.positive]
  by_cases hp : Verdict.pua ∈ results.map (·.normalizedVerdict)
  · simp [hm, hp, Verdict.positive]
  by_cases hs : Verdict.suspicious ∈ results.map (·.normalizedVerdict)
  · simp [hm, hp, hs, Verdict.positive]
  cases hcase : result.normalizedVerdict <;> rw [hcase] at hverdict h <;> contradiction

/-- The aggregate is positive exactly when some result is. -/
lemma aggregateVerdict_positive {results : List ScannerResult} :
    (aggregateVerdict results).positive = true ↔
      ∃ result ∈ results, result.normalizedVerdict.positive = true := by
  constructor
  · intro h
    by_contra hnone
    push Not at hnone
    have hfalse := aggregateVerdict_of_no_match fun r hr => by simpa using hnone r hr
    simp [hfalse] at h
  · rintro ⟨result, hmem, h⟩
    exact aggregateVerdict_of_match hmem h

namespace ScanService

/-! ## Creating jobs -/

/-- The job id `uuid4` hands out next. -/
def freshJobId : EStateM Exc Host JobId := do
  let id := (← get).nextJobId
  modify fun host => { host with nextJobId := id + 1 }
  return id

/-- Run a program on a job that only this call holds, and return the job. -/
def withJob (job : ScanJob) (x : EStateM Exc ScanState Unit) : EStateM Exc Host ScanJob :=
  fun host => match x ⟨job, host⟩ with
    | .ok _ s => .ok s.job s.host
    | .error e s => .error e s.host

/-- `create_queued`: a new job is saved and walks to QUEUED. -/
def createQueued (env : ScanEnv) (artifact : InputArtifact) (sourceLabel : String)
    (requested : List String) : EStateM Exc Host ScanJob := do
  let id ← freshJobId
  let selected := requested.filter fun name =>
    name ∈ env.adapters ∨ name ∈ env.genericAnalyzers
  let job := ScanJob.new id sourceLabel artifact requested selected
  JobService.save (env.fault id .saveCreated) job
  withJob job do
    JobService.transition (env.fault id .saveStaged) .staged
    JobService.transition (env.fault id .saveQueued) .queued

/-! ## The requested scanners -/

/-- The names in the list of requested scanners that stand for the late stages. -/
def lateStages : List String := ["container", "rab-correlation"]

/-- The effect of a generic result on `job.completeness`, given by `name` and native status. -/
def analyzerCompleteness (name : String) (result : AnalyzerResult) (completeness : String) :
    String :=
  let partialDocument := name = "document" ∧ startsWith result.nativeStatus "partial_"
  let completeness := if partialDocument then upper result.nativeStatus else completeness
  if result.errors ≠ [] ∧ name ∈ ["executable", "document"] ∧ ¬partialDocument then
    if result.nativeStatus ∈ ["partial_limit", "unsupported_limit"] then "PARTIAL_LIMIT"
    else "PARTIAL_ERROR"
  else completeness

/-- A generic analyzer: whatever it raises becomes an error of the job. -/
def runGeneric (env : ScanEnv) (name : String) (position : ℕ) : EStateM Exc ScanState Unit := do
  let id := (← get).job.jobId
  tryCatch (do
      let result ← lift (env.analyze id position)
      updateJob fun job =>
        { job with
          analyzerResults := job.analyzerResults ++ [result]
          completeness := analyzerCompleteness name result job.completeness
          rawOutputRefs := job.rawOutputRefs ++ result.rawOutput.toList
          errors := job.errors ++ result.errors.map fun error => s!"{name}: {error}" }
      onHost <| JobService.saveScannerStatus (env.fault id (.saveAnalyzed position))
        { scannerId := name
          qualificationState := result.qualificationState.getD .degraded
          installedVersion := (result.engineVersion.filter (· ≠ "")).or result.productVersion
          detail := "generic object analysis completed" })
    fun exc => updateJob fun job => job.addError s!"{name}: {exc.name}: {exc.text}"

/-- The scan proper, between `prepare` and `cleanup`. -/
def runPrepared (env : ScanEnv) (name : String) (position : ℕ)
    (previous : Option ScannerRuntimeStatus) (probe : ProbeResult) :
    EStateM Exc ScanState Unit := do
  let id := (← get).job.jobId
  let result ← lift (env.runPrepared id position)
  let result :=
    { result with
      selectedReason := some "requested and runtime-capable for ordinary-file"
      qualificationState := some ((previous.map (·.qualificationState)).getD probe.state) }
  updateJob fun job =>
    { job with
      scannerResults := job.scannerResults ++ [result]
      rawOutputRefs := job.rawOutputRefs ++ [result.rawOutputRef] }
  onHost <| JobService.saveScannerStatus (env.fault id (.saveScanned position))
    { scannerId := name
      qualificationState :=
        if result.normalizedVerdict = .error then .degraded else .qualified
      installedVersion := result.engineVersion
      detail := "real ordinary-file execution completed" }

/-- A scanner adapter: an unavailable one becomes an error of the job, but what the calls of an
available one raise leaves the loop. -/
def runAdapter (env : ScanEnv) (name : String) (position : ℕ) : EStateM Exc ScanState Unit := do
  let id := (← get).job.jobId
  let probe ← lift (env.probe id position)
  if !probe.available || probe.state ≠ .probed then
    updateJob fun job => job.addError s!"{name}: {probe.detail}"
  else
    let previous ← onHost (JobService.scannerStatus (env.fault id (.scannerStatuses position)) name)
    onHost <| JobService.saveScannerStatus (env.fault id (.saveProbed position))
      { scannerId := name
        qualificationState :=
          if previous.map (·.qualificationState) = some .qualified then .qualified else .probed
        installedVersion := probe.version
        detail := probe.detail }
    raiseIf (env.prepare id position)
    tryFinally (runPrepared env name position previous probe) (raiseIf (env.cleanup id position))

/-- One pass of the loop over the requested scanners. -/
def runScanner (env : ScanEnv) (name : String) (position : ℕ) : EStateM Exc ScanState Unit :=
  if name ∈ lateStages then pure ()
  else if name ∈ env.genericAnalyzers then runGeneric env name position
  else if name ∈ env.adapters then runAdapter env name position
  else updateJob fun job =>
    job.addError s!"{name}: unavailable or not applicable to ordinary files"

/-- The loop over the requested scanners. -/
def runScanners (env : ScanEnv) (requested : List String) : EStateM Exc ScanState Unit :=
  forEach (fun (name, position) => do
    runScanner env name position
    return Flow.next) requested.zipIdx

/-! ## The late stages and the end of a job -/

/-- The verdict of the submitted object itself. -/
def takeRootVerdict (job : ScanJob) : ScanJob :=
  { job with
    rootVerdict := some (aggregateVerdict job.scannerResults)
    normalizedVerdict := aggregateVerdict job.scannerResults }

/-- The recursive analyzer, after which the results of the derived objects count. -/
def runRecursion (stages : Stages) (requested : List String) (source : Bytes) :
    EStateM Exc ScanState Unit :=
  match stages.recursiveAnalyzer with
  | some process =>
      if "container" ∈ requested then do
        process source
        updateJob fun job =>
          { job with
            normalizedVerdict := aggregateVerdict
              (job.scannerResults ++ job.derivedObjects.flatMap (·.scannerResults)) }
      else pure ()
  | none => pure ()

/-- The correlation service. -/
def runCorrelation (stages : Stages) (requested : List String) : EStateM Exc ScanState Unit :=
  match stages.correlationService with
  | some process => if "rab-correlation" ∈ requested then process else pure ()
  | none => pure ()

/-- Everything between the transition to RUNNING and the second reading of the source. -/
def analyze (env : ScanEnv) (stages : Stages) (requested : List String) (source : Bytes) :
    EStateM Exc ScanState Unit := do
  runScanners env requested
  updateJob takeRootVerdict
  runRecursion stages requested source
  runCorrelation stages requested

/-- The source must still be what was submitted. -/
def checkSource (env : ScanEnv) (original : ℕ × Digest 64) : EStateM Exc ScanState Bytes := do
  let content ← lift (env.sourceAfter (← get).job.jobId)
  if (content.length, env.sha256 content) ≠ original then
    throw (.runtime "READ_ONLY invariant violated: source changed during scan")
  return content

/-- The admission of a job whose verdict is positive. -/
def admission (env : ScanEnv) (content : Bytes) (job : ScanJob) : EStateM Exc Host (Digest 64) :=
  PreservationService.admitSource (env.admitFault job.jobId) content job.inputArtifact
    job.normalizedVerdict

/-- The outcome of a job whose stages have all returned. -/
def preserve (env : ScanEnv) (content : Bytes) : EStateM Exc ScanState Unit := do
  let job := (← get).job
  if job.normalizedVerdict.positive then
    let path ← onHost (admission env content job)
    updateJob fun job =>
      { job with preservationDecision := some s!"local-quarantine:{path.val}" }
    JobService.transition (env.fault job.jobId .saveOutcome) .quarantined
  else
    updateJob fun job => { job with preservationDecision := some "transient-bytes-removed" }
    JobService.transition (env.fault job.jobId .saveOutcome) .complete

/-- The `except Exception` clause. -/
def fail (env : ScanEnv) (exc : Exc) : EStateM Exc ScanState Unit := do
  let id := (← get).job.jobId
  updateJob fun job => job.addError exc.text
  JobService.transition (env.fault id .saveFailed) .failed

/-- The `finally` clause. -/
def finish (env : ScanEnv) : EStateM Exc ScanState Unit := do
  let job := (← get).job
  raiseIf (env.fault job.jobId .removeStaging)
  onHost (JobService.save (env.fault job.jobId .saveFinal) job)

/-- The body of the `try` statement. -/
def attempt (env : ScanEnv) (stages : Stages) (requested : List String) (source : Bytes)
    (original : ℕ × Digest 64) : EStateM Exc ScanState Unit := do
  analyze env stages requested source
  let content ← checkSource env original
  preserve env content

/-- The size and the digest the source was submitted with. -/
def submitted (job : ScanJob) : ℕ × Digest 64 :=
  (job.inputArtifact.byteSize, job.inputArtifact.hashes.sha256)

/-- The `try` statement with its `except` clause. -/
def guarded (env : ScanEnv) (stages : Stages) (source : Bytes) (job : ScanJob) :
    EStateM Exc ScanState Unit :=
  tryCatch (attempt env stages job.requestedScanners source (submitted job)) (fail env)

/-- `execute_queued`, on the job in memory. -/
def execute (env : ScanEnv) (stages : Stages) (source : Bytes) : EStateM Exc ScanState Unit := do
  let job := (← get).job
  if job.status ≠ .queued then
    throw (.value "job must be QUEUED before execution")
  else
    JobService.transition (env.fault job.jobId .saveRunning) .running
    tryFinally (guarded env stages source job) (finish env)

/-- `execute_queued` returns the job it was given. -/
def executeQueued (env : ScanEnv) (stages : Stages) (job : ScanJob) (source : Bytes) :
    EStateM Exc Host ScanJob :=
  withJob job (execute env stages source)

end ScanService

end AVBox
