import AVBox.Analyzers.XmlParts
import AVBox.Preservation.Acquisition
import AVBox.Protocol.Authentication

/-!
# Submissions

`RABService.submit_stream` of `protocol/service.py`: an object is received into a file of its own,
checked, and stored as a job with its record, its upload and its place in the queue.  What a call
of the database or of the file system comes to is an outcome of the call, as it is in `ScanEnv`.

The program is cut where other threads may come in between: before the section under the lock
(`receive`, `identify`), the section itself (`locked`), and the answer.
-/

namespace AVBox

open Program

namespace RABService

/-! ## The service -/

structure AnalysisProfile where
  analyzers : List String
  enabled : Bool
  deriving DecidableEq, Repr

/-- A row of `rab_jobs`, with the members of its document.  The upload path is that of the object
in the directory of the job. -/
structure SubmittedJob where
  jobId : JobId
  clientId : PyStr
  clientRequestId : PyStr
  idempotencyKey : Digest 64
  fingerprint : Digest 64
  profile : PyStr
  declaredSha256 : PyStr
  verifiedSha256 : Digest 64
  size : ℕ
  filename : Option PyStr
  mediaType : Option PyStr
  deriving DecidableEq

/-- The database, the queue and the upload root. -/
structure Store where
  host : Host
  rabJobs : List SubmittedJob
  queue : List (Option ScanJob)
  /-- The files `incoming-<uuid>`, numbered in the order `uuid4` hands the names out. -/
  incoming : ℕ → Option Bytes
  /-- The directories `<job id>`, and the object in each. -/
  directories : JobId → Option (Option Bytes)
  nextIncoming : ℕ

/-- The calls of the database and of the file system that a submission makes, the saves of the job
apart. -/
inductive SubmitSite
  | openIncoming
  | write (number : ℕ)
  | sync
  | lookup
  | statuses
  | chmod
  | mkdir
  | rename
  | saveRabJob
  | put
  | readJob
  | readRecord
  /-- `incoming.unlink` for a duplicate. -/
  | removeDuplicate
  /-- `incoming.unlink` in the `except` clause. -/
  | removeRejected
  deriving DecidableEq, Repr

/-- The service, and the library functions it goes by. -/
structure SubmitEnv where
  scan : ScanEnv
  blake3 : Bytes → Digest 64
  sha1 : Bytes → Digest 40
  md5 : Bytes → Digest 32
  lower : PyStr → PyStr
  printable : Fin 0x110000 → Bool
  /-- `profile_map`. -/
  profiles : PyStr → Option AnalysisProfile
  maximumUploadBytes : ℕ
  queueCapacity : ℕ
  /-- `recursive_analyzer` and `correlation_service` are attached. -/
  recursive : Bool
  correlation : Bool

/-- The arguments of a call, and what is outside the service as far as the call sees it. -/
structure Submission where
  client : RABClient
  clientRequestId : PyStr
  idempotencyKey : PyStr
  profileId : PyStr
  expectedSha256 : PyStr
  filename : Option PyStr
  mediaType : Option PyStr
  /-- What the reads of the stream come to, one after the other. -/
  reads : List (Except Exc Bytes)
  probe : String → Except Exc ProbeResult
  fault : SubmitSite → Option Exc

/-- What leaves `submit_stream` besides an answer. -/
inductive SubmissionError
  | protocol (error : RABProtocolError)
  | escaped (exc : Exc)
  deriving DecidableEq

/-- `AnalysisJobAccepted`, without its time.  `object_id` and `links` spell out the digest and the
job id. -/
structure AnalysisJobAccepted where
  jobId : JobId
  objectSha256 : Digest 64
  profile : PyStr
  state : JobStatus
  duplicate : Bool
  deriving DecidableEq

def unsupportedProfile : RABProtocolError :=
  ⟨422, "UNSUPPORTED_PROFILE", "profile is unsupported"⟩

def invalidKey : RABProtocolError :=
  ⟨422, "INVALID_REQUEST", "Idempotency-Key is required and must be at most 200 characters"⟩

def invalidRequestId : RABProtocolError :=
  ⟨422, "INVALID_REQUEST", "client_request_id is required"⟩

def objectTooLarge : RABProtocolError :=
  ⟨413, "OBJECT_TOO_LARGE", "upload exceeds configured maximum"⟩

def objectHashMismatch : RABProtocolError :=
  ⟨422, "OBJECT_HASH_MISMATCH", "declared SHA-256 does not match received bytes"⟩

def idempotencyConflict : RABProtocolError :=
  ⟨409, "IDEMPOTENCY_CONFLICT", "idempotency key was reused with different semantics"⟩

def analyzerUnavailable (unavailable : List String) : RABProtocolError :=
  ⟨503, "ANALYZER_UNAVAILABLE", "profile analyzers are not qualified and available: " ++
    ", ".intercalate unavailable⟩

def queueFull : RABProtocolError := ⟨429, "QUEUE_FULL", "analysis queue is at capacity"⟩

def jobNotFound : RABProtocolError := ⟨404, "NOT_FOUND", "analysis job was not found"⟩

/-- A call of the database or of the file system. -/
def attempted (fault : Option Exc) : EStateM SubmissionError Store Unit :=
  raiseIf (fault.map .escaped)

/-- A program of the host, which has the jobs table. -/
def onJobs {α : Type} (x : EStateM Exc Host α) : EStateM SubmissionError Store α := fun s =>
  match x s.host with
  | .ok a host => .ok a { s with host := host }
  | .error exc host => .error (.escaped exc) { s with host := host }

variable (env : SubmitEnv) (call : Submission)

/-! ## Before the lock -/

/-- What is looked at before the object is received. -/
def checkRequest : Except RABProtocolError AnalysisProfile :=
  match (env.profiles call.profileId).filter (·.enabled) with
  | none => .error unsupportedProfile
  | some profile =>
      if call.idempotencyKey = [] ∨ call.idempotencyKey.length > 200 then .error invalidKey
      else if call.clientRequestId = [] ∨ call.clientRequestId.length > 200 then
        .error invalidRequestId
      else .ok profile

/-- The name of a file `incoming-<uuid>`. -/
def freshIncoming : EStateM SubmissionError Store ℕ := do
  let name := (← get).nextIncoming
  modify fun s => { s with nextIncoming := name + 1 }
  return name

/-- What the file holds, or that it is not there. -/
def Store.setIncoming (s : Store) (name : ℕ) (content : Option Bytes) : Store :=
  { s with incoming := Function.update s.incoming name content }

@[simp] lemma Store.setIncoming_self (s : Store) (name : ℕ) (content : Option Bytes) :
    (s.setIncoming name content).incoming name = content := Function.update_self ..

/-- The loop over the chunks, with what has been received before. -/
def receiveChunks (name : ℕ) : ℕ → Bytes → List (Except Exc Bytes) →
    EStateM SubmissionError Store Bytes
  | _, content, [] => pure content
  | _, _, .error exc :: _ => throw (.escaped exc)
  | number, content, .ok chunk :: reads => do
      if chunk = [] then return content
      else if (content ++ chunk).length > env.maximumUploadBytes then
        throw (.protocol objectTooLarge)
      else
        attempted (call.fault (.write number))
        modify fun s => s.setIncoming name (some (content ++ chunk))
        receiveChunks name (number + 1) (content ++ chunk) reads

/-- The object is written to the file, which must not be there. -/
def receive (name : ℕ) : EStateM SubmissionError Store Bytes := do
  attempted (call.fault .openIncoming)
  if ((← get).incoming name).isSome then
    throw (.escaped ⟨.osError, "FileExistsError", "File exists"⟩)
  else
    modify fun s => s.setIncoming name (some [])
    let content ← receiveChunks env call name 0 [] call.reads
    attempted (call.fault .sync)
    return content

/-- `text.encode()`. -/
def encodeText (text : PyStr) : Except Exc Bytes :=
  if text.wellFormed then .ok (text.flatMap Document.utf8Bytes)
  else .error ⟨.valueError, "UnicodeEncodeError", "surrogates not allowed"⟩

/-- The digests that the call is known by. -/
structure Identity where
  sha256 : Digest 64
  fingerprint : Digest 64
  idempotencyKey : Digest 64
  deriving DecidableEq

/-- The text that is hashed to the fingerprint. -/
def fingerprintText (digest : Digest 64) : PyStr :=
  call.client.clientId ++ 0 :: call.clientRequestId ++ 0 :: call.profileId ++ 0 ::
    PyStr.ofString digest.val

/-- The declared digest is compared, and the two texts are hashed. -/
def identify (content : Bytes) : Except SubmissionError Identity := do
  let digest := env.scan.sha256 content
  let declared ← (compareDigest (PyStr.ofString digest.val)
    (env.lower call.expectedSha256)).mapError .escaped
  if declared then
    let text ← (encodeText (fingerprintText call digest)).mapError .escaped
    let key ← (encodeText call.idempotencyKey).mapError .escaped
    return ⟨digest, env.scan.sha256 text, env.scan.sha256 key⟩
  else throw (.protocol objectHashMismatch)

/-! ## Under the lock -/

/-- The row that `rab_by_idempotency` finds. -/
def findKey (rows : List SubmittedJob) (clientId : PyStr) (key : Digest 64) :
    Option SubmittedJob :=
  rows.find? fun row => decide (row.clientId = clientId ∧ row.idempotencyKey = key)

/-- `accepted`. -/
def accepted (id : JobId) (duplicate : Bool) :
    EStateM SubmissionError Store AnalysisJobAccepted := do
  attempted (call.fault .readJob)
  let job := (← get).host.jobs id
  attempted (call.fault .readRecord)
  match job, (← get).rabJobs.find? (·.jobId = id) with
  | some job, some record =>
      return ⟨job.jobId, job.inputArtifact.hashes.sha256, record.profile, job.status, duplicate⟩
  | _, _ => throw (.protocol jobNotFound)

/-- `incoming.unlink(missing_ok=True)`. -/
def removeIncoming (fault : Option Exc) (name : ℕ) : EStateM SubmissionError Store Unit := do
  attempted fault
  modify fun s => s.setIncoming name none

/-- The answer to a call whose key has been used, if it has. -/
def answerExisting (name : ℕ) (identity : Identity) :
    EStateM SubmissionError Store (Option AnalysisJobAccepted) := do
  attempted (call.fault .lookup)
  match findKey (← get).rabJobs call.client.clientId identity.idempotencyKey with
  | none => return none
  | some existing =>
      if existing.fingerprint ≠ identity.fingerprint then throw (.protocol idempotencyConflict)
      else
        removeIncoming (call.fault .removeDuplicate) name
        return some (← accepted call existing.jobId true)

/-- `_analyzer_available`. -/
def analyzerAvailable (host : Host) (analyzer : String) : Except Exc Bool :=
  if analyzer = "rab-correlation" then .ok env.correlation
  else if analyzer = "container" then .ok env.recursive
  else if analyzer ∈ env.scan.genericAnalyzers then do
    let probe ← call.probe analyzer
    return probe.available && probe.state ∈ [.probed, .qualified]
  else
    .ok (analyzer ∈ env.scan.adapters &&
      (host.scannerRuntime analyzer).any fun status => status.qualificationState = .qualified)

/-- `_safe_label`. -/
def safeLabel (value : Option PyStr) : Option PyStr :=
  value.bind fun value =>
    let name := Bootstrap.pathName ((value.filter env.printable).take 255)
    if name = [] then none else some name

/-- A text that pydantic takes for a field of type `str`. -/
def fieldText (field : String) (text : PyStr) : Except Exc String :=
  if text.wellFormed then .ok (String.ofList (text.map fun c => Char.ofNat c.val))
  else .error ⟨.valueError, "ValidationError", field ++ ": invalid unicode string"⟩

/-- The artifact of the job. -/
def artifactOf (content : Bytes) : Except Exc InputArtifact := do
  let filename ← fieldText "filename"
    ((safeLabel env call.filename).getD (PyStr.ofString "submitted-object"))
  let submitted := (call.filename.filter (· ≠ [])).map (·.take 1024)
  if !submitted.all PyStr.wellFormed then
    throw ⟨.valueError, "ValidationError", "submitted_filename: invalid unicode string"⟩
  let mediaType ← fieldText "media_type"
    ((call.mediaType.filter (· ≠ [])).getD (PyStr.ofString "application/octet-stream"))
  let source ← fieldText "source" (PyStr.ofString "rab:" ++ call.client.clientId)
  return ⟨⟨env.scan.sha256 content, env.blake3 content, env.sha1 content, env.md5 content⟩,
    content.length, filename, submitted, mediaType, source⟩

/-- What is looked at before the job is stored. -/
def prepare (profile : AnalysisProfile) (content : Bytes) :
    EStateM SubmissionError Store InputArtifact := do
  attempted (call.fault .statuses)
  let s ← get
  let available ← lift ((profile.analyzers.mapM (analyzerAvailable env call s.host)).mapError
    .escaped)
  let unavailable := ((profile.analyzers.zip available).filter (!·.2)).map Prod.fst
  if unavailable ≠ [] then throw (.protocol (analyzerUnavailable unavailable))
  else if s.queue.length ≥ env.queueCapacity then throw (.protocol queueFull)
  else
    attempted (call.fault .chmod)
    lift ((artifactOf env call content).mapError .escaped)

/-- `directory.mkdir`. -/
def makeDirectory (id : JobId) : EStateM SubmissionError Store Unit := do
  attempted (call.fault .mkdir)
  if ((← get).directories id).isSome then
    throw (.escaped ⟨.osError, "FileExistsError", "File exists"⟩)
  else modify fun s => { s with directories := Function.update s.directories id (some none) }

/-- `incoming.rename(upload)`. -/
def moveUpload (name : ℕ) (id : JobId) : EStateM SubmissionError Store Unit := do
  attempted (call.fault .rename)
  match (← get).incoming name with
  | none => throw (.escaped ⟨.osError, "FileNotFoundError", "No such file or directory"⟩)
  | some content =>
      modify fun s =>
        { s.setIncoming name none with
          directories := Function.update s.directories id (some (some content)) }

/-- `save_rab_job`: neither the job nor the key of the client may have a row. -/
def saveRabJob (row : SubmittedJob) : EStateM SubmissionError Store Unit := do
  attempted (call.fault .saveRabJob)
  if ∃ other ∈ (← get).rabJobs, other.jobId = row.jobId ∨
      other.clientId = row.clientId ∧ other.idempotencyKey = row.idempotencyKey then
    throw (.escaped ⟨.databaseError, "IntegrityError", "UNIQUE constraint failed"⟩)
  else modify fun s => { s with rabJobs := s.rabJobs ++ [row] }

/-- `put_nowait`. -/
def putNowait (job : ScanJob) : EStateM SubmissionError Store Unit := do
  attempted (call.fault .put)
  if (← get).queue.length ≥ env.queueCapacity then throw (.escaped ⟨.other, "Full", ""⟩)
  else modify fun s => { s with queue := s.queue ++ [some job] }

/-- The row of a job. -/
def submittedJob (content : Bytes) (identity : Identity) (id : JobId) : SubmittedJob where
  jobId := id
  clientId := call.client.clientId
  clientRequestId := call.clientRequestId
  idempotencyKey := identity.idempotencyKey
  fingerprint := identity.fingerprint
  profile := call.profileId
  declaredSha256 := env.lower call.expectedSha256
  verifiedSha256 := identity.sha256
  size := content.length
  filename := safeLabel env call.filename
  mediaType := call.mediaType

/-- The upload of a job, its row and its place in the queue. -/
def placeJob (name : ℕ) (content : Bytes) (identity : Identity) (job : ScanJob) :
    EStateM SubmissionError Store JobId := do
  makeDirectory call job.jobId
  moveUpload call name job.jobId
  saveRabJob call (submittedJob env call content identity job.jobId)
  putNowait env call job
  return job.jobId

/-- A job is created and placed. -/
def storeJob (name : ℕ) (profile : AnalysisProfile) (content : Bytes) (identity : Identity)
    (artifact : InputArtifact) : EStateM SubmissionError Store JobId := do
  placeJob env call name content identity
    (← onJobs (ScanService.createQueued env.scan artifact artifact.source profile.analyzers))

/-- How the section under the lock ends: with the answer to a duplicate, or with a new job. -/
inductive Locked
  | duplicate (answer : AnalysisJobAccepted)
  | stored (id : JobId)
  deriving DecidableEq

/-- The section under the lock. -/
def locked (name : ℕ) (profile : AnalysisProfile) (content : Bytes) (identity : Identity) :
    EStateM SubmissionError Store Locked := do
  match ← answerExisting call name identity with
  | some answer => return .duplicate answer
  | none =>
      let artifact ← prepare env call profile content
      return .stored (← storeJob env call name profile content identity artifact)

/-- The answer of the call. -/
def answer : Locked → EStateM SubmissionError Store AnalysisJobAccepted
  | .duplicate answer => pure answer
  | .stored id => do return { ← accepted call id false with state := .queued }

/-- A part of the `try` statement. -/
def guarded {α : Type} (name : ℕ) (x : EStateM SubmissionError Store α) :
    EStateM SubmissionError Store α :=
  tryCatch x fun error => do
    removeIncoming (call.fault .removeRejected) name
    throw error

/-- The `try` statement. -/
def submitUpload (profile : AnalysisProfile) (name : ℕ) :
    EStateM SubmissionError Store AnalysisJobAccepted := do
  let content ← receive env call name
  let identity ← lift (identify env call content)
  answer call (← locked env call name profile content identity)

/-- `submit_stream`. -/
def submitStream : EStateM SubmissionError Store AnalysisJobAccepted := do
  let profile ← lift ((checkRequest env call).mapError .protocol)
  let name ← freshIncoming
  guarded call name (submitUpload env call profile name)

end RABService

end AVBox
