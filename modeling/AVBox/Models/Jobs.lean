import AVBox.Models.Common

/-!
# Jobs and what they collect

The records of `models/jobs.py`, `models/analysis.py` and `models/correlation.py` that a scan
reads and writes.  A job walks the state machine `TRANSITIONS`; `ScanJob.transition` is the only
way to change its status.
-/

namespace AVBox

/-! ## The state machine -/

inductive JobStatus
  | created
  | staged
  | queued
  | running
  | complete
  | failed
  | quarantined
  deriving DecidableEq, Repr

/-- The edges of the job state machine. -/
def transitions : JobStatus → List JobStatus
  | .created => [.staged, .failed]
  | .staged => [.queued, .failed, .quarantined]
  | .queued => [.running, .failed]
  | .running => [.complete, .failed, .quarantined]
  | .complete => [.quarantined]
  | .failed => []
  | .quarantined => []

/-- The value of the `StrEnum` member, as error texts spell it. -/
def JobStatus.value : JobStatus → String
  | .created => "CREATED"
  | .staged => "STAGED"
  | .queued => "QUEUED"
  | .running => "RUNNING"
  | .complete => "COMPLETE"
  | .failed => "FAILED"
  | .quarantined => "QUARANTINED"

/-- COMPLETE, FAILED or QUARANTINED: analysis of the job is over. -/
def JobStatus.terminal : JobStatus → Bool
  | .complete | .failed | .quarantined => true
  | _ => false

/-! ## Analysis records -/

/-- The value of an observation, as far as `_ssdeep` looks into it. -/
inductive ObservationValue
  | dict (fingerprint : Option String)
  | other
  deriving DecidableEq, Repr

structure Observation where
  observationType : String
  value : ObservationValue
  deriving DecidableEq, Repr

/-- What a generic analyzer reports. -/
structure AnalyzerResult where
  nativeStatus : String
  errors : List String
  rawOutput : Option String
  qualificationState : Option QualificationState
  engineVersion : Option String
  productVersion : Option String
  observations : List Observation
  deriving DecidableEq, Repr

/-- What a scanner adapter reports. -/
structure ScannerResult where
  scannerId : String
  normalizedVerdict : Verdict
  rawOutputRef : String
  engineVersion : Option String
  selectedReason : Option String
  qualificationState : Option QualificationState
  deriving DecidableEq, Repr

/-- A row of the `scanner_runtime` table. -/
structure ScannerRuntimeStatus where
  scannerId : String
  qualificationState : QualificationState
  installedVersion : Option String
  detail : String
  deriving DecidableEq, Repr

inductive CorrelationState
  | notRequested
  | unavailable
  | complete
  | partially
  | error
  deriving DecidableEq, Repr

structure CorrelationResult where
  providerId : String
  providerVersion : String
  state : CorrelationState
  skippedReason : Option String
  deriving DecidableEq, Repr

inductive RabCorrelation
  | notAvailable
  | available
  deriving DecidableEq, Repr

structure PreservationContext where
  rabCorrelation : RabCorrelation
  correlation : Option CorrelationResult
  deriving DecidableEq, Repr

/-- The defaults of a context that no correlation pass has reached. -/
def PreservationContext.empty : PreservationContext := ⟨.notAvailable, none⟩

/-- How a child came out of its parent. -/
inductive Relation
  | contains
  | decompressedFrom
  | filesystemEntryOf
  | partitionOf
  | embeddedFileOf
  deriving DecidableEq, Repr

structure ObjectIdentity where
  sha256 : Digest 64
  blake3 : Option (Digest 64)
  sha1 : Option (Digest 40)
  md5 : Option (Digest 32)
  size : ℕ
  filename : Option String
  mediaType : Option String
  deriving DecidableEq

/-- `DerivedObject.object` has type `Any`; the code tells three cases apart. -/
inductive ObjectRef
  | artifact (value : InputArtifact)
  | identity (value : ObjectIdentity)
  | other
  deriving DecidableEq

structure DerivedObject where
  object : ObjectRef
  parentSha256 : Digest 64
  depth : ℕ
  memberName : PyStr
  normalizedMemberName : PyStr
  memberIndex : ℕ
  analyzerResults : List AnalyzerResult
  scannerResults : List ScannerResult
  normalizedVerdict : Verdict
  errors : List String
  preservationContext : PreservationContext
  deriving DecidableEq

structure ObjectRelationship where
  relationship : Relation
  sourceSha256 : Digest 64
  targetSha256 : Digest 64
  memberName : PyStr
  normalizedMemberName : PyStr
  depth : ℕ
  memberIndex : ℕ
  deriving DecidableEq

/-- The counters that every handler of one extraction shares. -/
structure ExtractionUsage where
  childrenDiscovered : ℕ
  childrenMaterialized : ℕ
  totalExtractedBytes : ℕ
  maxDepthReached : ℕ
  limitEvents : List String
  materializedPartitionBytes : ℕ
  deriving DecidableEq, Repr

/-- `ExtractionUsage()`. -/
def ExtractionUsage.zero : ExtractionUsage := ⟨0, 0, 0, 0, [], 0⟩

/-! ## Jobs -/

/-- Job ids are numbered in the order `uuid4` hands them out. -/
abbrev JobId := ℕ

structure ScanJob where
  jobId : JobId
  source : String
  inputArtifact : InputArtifact
  requestedScanners : List String
  applicableScanners : List String
  status : JobStatus
  scannerResults : List ScannerResult
  analyzerResults : List AnalyzerResult
  derivedObjects : List DerivedObject
  relationships : List ObjectRelationship
  extractionUsage : Option ExtractionUsage
  completeness : String
  rootVerdict : Option Verdict
  normalizedVerdict : Verdict
  rawOutputRefs : List String
  preservationDecision : Option String
  preservationContext : PreservationContext
  errors : List String
  deriving DecidableEq

namespace ScanJob

/-- `ScanJob(...)` with the defaults of every field that is not given. -/
def new (jobId : JobId) (source : String) (artifact : InputArtifact) (requested : List String)
    (applicable : List String) : ScanJob where
  jobId := jobId
  source := source
  inputArtifact := artifact
  requestedScanners := requested
  applicableScanners := applicable
  status := .created
  scannerResults := []
  analyzerResults := []
  derivedObjects := []
  relationships := []
  extractionUsage := none
  completeness := "COMPLETE"
  rootVerdict := none
  normalizedVerdict := .notScanned
  rawOutputRefs := []
  preservationDecision := none
  preservationContext := .empty
  errors := []

/-- What a refused transition raises. -/
def transitionError (job : ScanJob) (target : JobStatus) : Exc :=
  .value s!"invalid job transition: {job.status.value} -> {target.value}"

/-- `job.transition(target)`: refused off the edges of the state machine. -/
def transition (job : ScanJob) (target : JobStatus) : Except Exc ScanJob :=
  if target ∈ transitions job.status then
    .ok { job with status := target }
  else
    .error (job.transitionError target)

lemma transition_of_mem {job : ScanJob} {target : JobStatus}
    (h : target ∈ transitions job.status) :
    job.transition target = .ok { job with status := target } := if_pos h

lemma transition_of_not_mem {job : ScanJob} {target : JobStatus}
    (h : target ∉ transitions job.status) :
    job.transition target = .error (job.transitionError target) := if_neg h

lemma transition_eq_ok {job job' : ScanJob} {target : JobStatus} :
    job.transition target = .ok job' ↔
      target ∈ transitions job.status ∧ { job with status := target } = job' := by
  unfold transition
  split <;> simp [*]

/-- `job.errors.append(text)`. -/
def addError (job : ScanJob) (text : String) : ScanJob :=
  { job with errors := job.errors ++ [text] }

end ScanJob

end AVBox
