import AVBox.Lib.Program
import AVBox.Models.Jobs

/-!
# The host a scan runs on, and the jobs table

`Host` is everything outside one job that a scan reads or writes: the `jobs` and
`scanner_runtime` tables, the quarantine, the supply of job ids and the log of correlation
queries.  A running scan holds its job in memory beside the host (`ScanState`), so the stored row
and the job in memory can differ, and a save that fails leaves them different.

`JobService.save` replaces the row unconditionally and `JobService.transition` changes the job in
memory before it saves, as `application/jobs.py` does.  Each write of the database takes the
exception it may fail with as an argument.
-/

namespace AVBox

open Program

/-- One call of `RabCorrelationProvider.correlate`. -/
structure CorrelateCall where
  jobId : JobId
  artifact : InputArtifact
  fingerprint : Option String
  deriving DecidableEq

/-- What a scan shares with every other scan of the process. -/
structure Host where
  jobs : JobId → Option ScanJob
  scannerRuntime : String → Option ScannerRuntimeStatus
  /-- `<quarantine>/sha256/<sha[:2]>/<sha>`. -/
  quarantine : Digest 64 → Option Bytes
  /-- Whether `<quarantine>/sha256/<sha[:2]>/<sha>.incoming` is there: an admission that has not
  been renamed yet. -/
  incoming : Digest 64 → Bool
  nextJobId : JobId
  correlateCalls : List CorrelateCall

/-- A job in memory and the host it runs on. -/
structure ScanState where
  job : ScanJob
  host : Host

/-! ## Reading and writing the two halves -/

/-- Change the job in memory. -/
def updateJob (f : ScanJob → ScanJob) : EStateM Exc ScanState Unit :=
  modify fun s => { s with job := f s.job }

/-- Run a program of the host beside the job. -/
def onHost {α : Type} (x : EStateM Exc Host α) : EStateM Exc ScanState α :=
  zoom ScanState.host (fun host s => { s with host := host }) x

@[simp] lemma updateJob_apply (f : ScanJob → ScanJob) (s : ScanState) :
    updateJob f s = .ok () { s with job := f s.job } := rfl

@[simp] lemma updateJob_bind_apply {α : Type} (f : ScanJob → ScanJob)
    (g : Unit → EStateM Exc ScanState α) (s : ScanState) :
    (updateJob f >>= g) s = g () { s with job := f s.job } := rfl

lemma returns_updateJob_bind {α : Type} {f : ScanJob → ScanJob}
    {g : Unit → EStateM Exc ScanState α} {s : ScanState} :
    Returns (updateJob f >>= g) s ↔ Returns (g ()) { s with job := f s.job } := Iff.rfl

lemma onHost_of_ok {α : Type} {x : EStateM Exc Host α} {s : ScanState} {a : α} {host : Host}
    (h : x s.host = .ok a host) : onHost x s = .ok a { s with host := host } := zoom_of_ok h

lemma onHost_of_error {α : Type} {x : EStateM Exc Host α} {s : ScanState} {e : Exc} {host : Host}
    (h : x s.host = .error e host) : onHost x s = .error e { s with host := host } := by
  simp [onHost, zoom, h]

/-- The row of a job with its new document. -/
def Host.saved (host : Host) (job : ScanJob) : Host :=
  { host with jobs := Function.update host.jobs job.jobId (some job) }

@[simp] lemma Host.saved_jobs_self (host : Host) (job : ScanJob) :
    (host.saved job).jobs job.jobId = some job := Function.update_self ..

lemma Host.saved_jobs_of_ne (host : Host) (job : ScanJob) {id : JobId} (h : id ≠ job.jobId) :
    (host.saved job).jobs id = host.jobs id := Function.update_of_ne h ..

@[simp] lemma Host.saved_quarantine (host : Host) (job : ScanJob) :
    (host.saved job).quarantine = host.quarantine := rfl

@[simp] lemma Host.saved_incoming (host : Host) (job : ScanJob) :
    (host.saved job).incoming = host.incoming := rfl

@[simp] lemma Host.saved_nextJobId (host : Host) (job : ScanJob) :
    (host.saved job).nextJobId = host.nextJobId := rfl

@[simp] lemma Host.saved_correlateCalls (host : Host) (job : ScanJob) :
    (host.saved job).correlateCalls = host.correlateCalls := rfl

namespace JobService

/-- `INSERT OR REPLACE INTO jobs`: the stored row becomes the job in memory. -/
def save (fault : Option Exc) (job : ScanJob) : EStateM Exc Host Unit := do
  raiseIf fault
  modify fun host => host.saved job

/-- `transition`: the job in memory changes first, then the row. -/
def transition (fault : Option Exc) (target : JobStatus) : EStateM Exc ScanState Unit := do
  let job ← lift ((← get).job.transition target)
  updateJob fun _ => job
  onHost (save fault job)

/-- `save_scanner_status`. -/
def saveScannerStatus (fault : Option Exc) (status : ScannerRuntimeStatus) :
    EStateM Exc Host Unit := do
  raiseIf fault
  modify fun host =>
    { host with scannerRuntime := Function.update host.scannerRuntime status.scannerId status }

/-- `scanner_statuses().get(name)`. -/
def scannerStatus (fault : Option Exc) (name : String) :
    EStateM Exc Host (Option ScannerRuntimeStatus) := do
  raiseIf fault
  return (← get).scannerRuntime name

@[simp] lemma save_none (job : ScanJob) (host : Host) :
    save none job host = .ok () (host.saved job) := rfl

@[simp] lemma save_some (e : Exc) (job : ScanJob) (host : Host) :
    save (some e) job host = .error e host := rfl

/-- A legal transition: the job in memory has changed whether or not the row is saved. -/
lemma transition_of_mem {fault : Option Exc} {target : JobStatus} {s : ScanState}
    (h : target ∈ transitions s.job.status) :
    transition fault target s = match fault with
      | none => .ok () ⟨{ s.job with status := target },
          s.host.saved { s.job with status := target }⟩
      | some e => .error e ⟨{ s.job with status := target }, s.host⟩ := by
  cases fault <;>
    simp [transition, bind_apply, ScanJob.transition_of_mem h, onHost, zoom]

/-- An illegal transition raises and changes nothing. -/
lemma transition_of_not_mem {fault : Option Exc} {target : JobStatus} {s : ScanState}
    (h : target ∉ transitions s.job.status) :
    transition fault target s = .error (s.job.transitionError target) s := by
  simp only [transition, bind_apply, get_apply, ScanJob.transition_of_not_mem h, lift_error]

/-- A transition that returns has reached its target. -/
lemma transition_eq_ok {fault : Option Exc} {target : JobStatus} {s s' : ScanState}
    (h : transition fault target s = .ok () s') : s'.job.status = target := by
  by_cases hmem : target ∈ transitions s.job.status
  · rw [transition_of_mem hmem] at h
    cases fault with
    | none => obtain ⟨-, rfl⟩ := EStateM.Result.ok.inj h; rfl
    | some e => simp at h
  · rw [transition_of_not_mem hmem] at h
    simp at h

end JobService

end AVBox
