import AVBox.Protocol.Rejections
import AVBox.Protocol.Worker
import Mathlib.Data.List.Pairwise

/-!
# The parts of a submission

Other threads come in between the parts of `submit_stream`.  It is cut here where it meets them:
before the lock, behind each thing that is done under the lock, and before the answer.  Inside a
part it works on what is its own: its file, the job it has created, and under the lock the table
of submitted jobs.

`CallPoint.next` is the next part of a call, and `Part` lists what a part may do.
`submitStream_eq` puts the parts together again.
-/

namespace AVBox

open Program

namespace RABService

/-! ## The parts -/

/-- An object that has been received. -/
structure Upload where
  name : ℕ
  profile : AnalysisProfile
  content : Bytes
  identity : Identity

/-- Where a call of `submit_stream` is. -/
inductive CallPoint
  | started
  /-- The lock is to be taken. -/
  | received (upload : Upload)
  /-- Nothing has been submitted under the key; from here on the lock is held. -/
  | looked (upload : Upload)
  | prepared (upload : Upload) (artifact : InputArtifact)
  | created (upload : Upload) (job : ScanJob)
  /-- The job is in the queue, and the lock has been released. -/
  | stored (upload : Upload) (id : JobId)
  | answered (answer : AnalysisJobAccepted)
  | rejected (error : SubmissionError)
  /-- The job has been created, and something behind that failed. -/
  | broken (id : JobId) (error : SubmissionError)
  /-- The job is in the queue, and could not be read again. -/
  | unanswered (id : JobId) (error : SubmissionError)

namespace CallPoint

/-- Whether the lock is held. -/
def locked : CallPoint → Bool
  | looked _ | prepared _ _ | created _ _ => true
  | _ => false

/-- Whether the next part takes the lock. -/
def locks : CallPoint → Bool
  | received _ => true
  | _ => false

/-- Whether the call has come to its end. -/
def closed : CallPoint → Bool
  | answered _ | rejected _ | broken _ _ | unanswered _ _ => true
  | _ => false

/-- Where the call ends if the next part raises. -/
def failed : CallPoint → SubmissionError → CallPoint
  | created _ job, error => broken job.jobId error
  | stored _ id, error => unanswered id error
  | _, error => rejected error

/-- The next part of a call. -/
def next (env : SubmitEnv) (call : Submission) : CallPoint → EStateM SubmissionError Store CallPoint
  | started => do
      let profile ← lift ((checkRequest env call).mapError .protocol)
      let name ← freshIncoming
      guarded call name do
        let content ← receive env call name
        let identity ← lift (identify env call content)
        return received ⟨name, profile, content, identity⟩
  | received upload => guarded call upload.name do
      let found ← answerExisting call upload.name upload.identity
      return found.elim (looked upload) answered
  | looked upload => guarded call upload.name do
      return prepared upload (← prepare env call upload.profile upload.content)
  | prepared upload artifact => guarded call upload.name do
      return created upload (← onJobs (ScanService.createQueued env.scan artifact artifact.source
        upload.profile.analyzers))
  | created upload job => guarded call upload.name do
      return stored upload (← placeJob env call upload.name upload.content upload.identity job)
  | stored upload id => guarded call upload.name do
      return answered (← answer call (.stored id))
  | point => pure point

end CallPoint

section Parts

variable {env : SubmitEnv} {call : Submission} {name : ℕ} {s t : Store}

/-! ## What a part leaves alone -/

lemma guarded_eq_ok {α : Type} {x : EStateM SubmissionError Store α} {a : α} :
    guarded call name x s = .ok a t ↔ x s = .ok a t := by
  refine ⟨fun h => ?_, guarded_of_ok⟩
  rw [guarded, tryCatch_apply] at h
  cases hx : x s with
  | ok b u =>
      rw [hx] at h
      exact h
  | error error u =>
      rw [hx] at h
      cases hremove : call.fault .removeRejected <;> rw [hremove] at h <;> cases h

/-- What cleans up behind an exception touches the file of the call only. -/
lemma guarded_eq_error {α : Type} {x : EStateM SubmissionError Store α} {error : SubmissionError}
    (h : guarded call name x s = .error error t) :
    ∃ error' u, x s = .error error' u ∧ (t = u ∨ t = u.setIncoming name none) := by
  cases hx : x s with
  | ok b u => cases (guarded_of_ok hx).symm.trans h
  | error error' u =>
      refine ⟨error', u, rfl, ?_⟩
      obtain ⟨other, hguarded⟩ := guarded_of_error call name hx
      obtain ⟨-, rfl⟩ := EStateM.Result.error.inj (hguarded.symm.trans h)
      split
      · exact .inr rfl
      · exact .inl rfl

lemma guarded_sameBut {α : Type} {x : EStateM SubmissionError Store α}
    (hx : Moves (Store.SameBut name) x) : Moves (Store.SameBut name) (guarded call name x) :=
  .tryCatch (fun _ _ _ => .trans) hx fun _ => moves_then (removeIncoming_sameBut _) fun _ =>
    .throw .refl _

/-- What is received is what the file holds. -/
lemma receiveChunks_content {number : ℕ} {content received : Bytes}
    {reads : List (Except Exc Bytes)} (hfile : s.incoming name = some content)
    (h : receiveChunks env call name number content reads s = .ok received t) :
    t.incoming name = some received := by
  induction reads generalizing number content s with
  | nil =>
      obtain ⟨rfl, rfl⟩ := EStateM.Result.ok.inj h
      exact hfile
  | cons read reads ih =>
      cases read with
      | error exc => cases h
      | ok chunk =>
          rw [receiveChunks] at h
          by_cases hend : chunk = []
          · rw [if_pos hend] at h
            obtain ⟨rfl, rfl⟩ := EStateM.Result.ok.inj h
            exact hfile
          by_cases hlarge : (content ++ chunk).length > env.maximumUploadBytes
          · rw [if_neg hend, if_pos hlarge] at h
            cases h
          rw [if_neg hend, if_neg hlarge] at h
          obtain ⟨-, h⟩ := attempted_bind_eq_ok.1 h
          exact ih (s := s.setIncoming name (some (content ++ chunk)))
            (Store.setIncoming_self ..) h

lemma receive_content {received : Bytes} (h : receive env call name s = .ok received t) :
    t.incoming name = some received := by
  rw [receive] at h
  obtain ⟨-, h⟩ := attempted_bind_eq_ok.1 h
  rw [get_bind_apply] at h
  by_cases hthere : (s.incoming name).isSome
  · rw [if_pos hthere] at h
    cases h
  · rw [if_neg hthere] at h
    rw [modify_bind_apply] at h
    obtain ⟨content, u, hchunks, h⟩ := bind_eq_ok.1 h
    obtain ⟨-, h⟩ := attempted_bind_eq_ok.1 h
    obtain ⟨rfl, rfl⟩ := EStateM.Result.ok.inj h
    exact receiveChunks_content (s := s.setIncoming name (some [])) (Store.setIncoming_self ..)
      hchunks

/-! ## What holds between the parts -/

/-- Two rows share neither their job nor their key. -/
def SubmittedJob.Apart (row other : SubmittedJob) : Prop :=
  row.jobId ≠ other.jobId ∧
    ¬(row.clientId = other.clientId ∧ row.idempotencyKey = other.idempotencyKey)

instance : Std.Symm SubmittedJob.Apart where
  symm _ _ h := ⟨h.1.symm, fun h' => h.2 ⟨h'.1.symm, h'.2.symm⟩⟩

/-- The rows of the jobs and what belongs to them. -/
structure Store.Sound (env : SubmitEnv) (s : Store) : Prop where
  /-- What `uuid4` has not handed out yet is free. -/
  directories : ∀ id, s.host.nextJobId ≤ id → s.directories id = none
  incoming : ∀ name, s.nextIncoming ≤ name → s.incoming name = none
  issued : ∀ row ∈ s.rabJobs, row.jobId < s.host.nextJobId
  apart : s.rabJobs.Pairwise SubmittedJob.Apart
  stored : ∀ row ∈ s.rabJobs, ∃ job, s.host.jobs row.jobId = some job ∧
    job.jobId = row.jobId ∧ job.inputArtifact.hashes.sha256 = row.verifiedSha256
  /-- A job in the queue has not been started, and its upload is what it was submitted with. -/
  queued : ∀ job, some job ∈ s.queue → Queued s.host job ∧ ∃ content,
    s.directories job.jobId = some (some content) ∧
      job.inputArtifact.hashes.sha256 = env.scan.sha256 content
  distinct : (itemIds s.queue).Nodup

/-- An object that has arrived and lies in its file. -/
structure Upload.Held (env : SubmitEnv) (call : Submission) (upload : Upload) (s : Store) :
    Prop where
  arrives : Arrives env call upload.profile upload.content upload.identity
  issued : upload.name < s.nextIncoming
  file : s.incoming upload.name = some upload.content

/-- No row has the key of the call. -/
def NewKey (call : Submission) (identity : Identity) (s : Store) : Prop :=
  ∀ row ∈ s.rabJobs, ¬(row.clientId = call.client.clientId ∧
    row.idempotencyKey = identity.idempotencyKey)

/-- A job that is stored and waits for its place. -/
structure Unplaced (upload : Upload) (job : ScanJob) (s : Store) : Prop where
  queued : Queued s.host job
  directory : s.directories job.jobId = none
  row : ∀ row ∈ s.rabJobs, row.jobId ≠ job.jobId
  place : job.jobId ∉ itemIds s.queue
  digest : job.inputArtifact.hashes.sha256 = upload.identity.sha256

/-- The answer goes by the row of the key. -/
structure Answers (env : SubmitEnv) (call : Submission) (s : Store)
    (answer : AnalysisJobAccepted) (profile : AnalysisProfile) (content : Bytes)
    (identity : Identity) (row : SubmittedJob) : Prop where
  arrives : Arrives env call profile content identity
  mem : row ∈ s.rabJobs
  clientId : row.clientId = call.client.clientId
  idempotencyKey : row.idempotencyKey = identity.idempotencyKey
  fingerprint : row.fingerprint = identity.fingerprint
  jobId : answer.jobId = row.jobId
  profileId : answer.profile = row.profile
  objectSha256 : answer.objectSha256 = row.verifiedSha256
  new : answer.duplicate = false → row = submittedJob env call content identity answer.jobId

/-- What holds of a call, by where it is. -/
def CallPoint.Sound (env : SubmitEnv) (call : Submission) (s : Store) : CallPoint → Prop
  | .started => True
  | .received upload => upload.Held env call s
  | .looked upload => upload.Held env call s ∧ NewKey call upload.identity s
  | .prepared upload artifact => upload.Held env call s ∧ NewKey call upload.identity s ∧
      artifactOf env call upload.content = .ok artifact
  | .created upload job => upload.Held env call s ∧ NewKey call upload.identity s ∧
      Unplaced upload job s
  | .stored upload id => Arrives env call upload.profile upload.content upload.identity ∧
      upload.name < s.nextIncoming ∧
      submittedJob env call upload.content upload.identity id ∈ s.rabJobs
  | .answered answer => ∃ profile content identity row,
      Answers env call s answer profile content identity row
  | .rejected _ => True
  | .broken id _ => id < s.host.nextJobId ∧ id ∉ itemIds s.queue
  | .unanswered id _ => ∃ row ∈ s.rabJobs, row.jobId = id

/-! ## What a part may do -/

/-- The ends of the parts, from the store `s` to the store `t`. -/
inductive Part (env : SubmitEnv) (call : Submission) (s t : Store) : CallPoint → CallPoint → Prop
  | arrives {upload : Upload} (held : upload.Held env call t)
      (name : upload.name = s.nextIncoming) (same : s.SameBut upload.name t) :
      Part env call s t .started (.received upload)
  | turnedAway {error : SubmissionError} (same : s.SameBut s.nextIncoming t)
      (fresh : t = s ∨ s.nextIncoming < t.nextIncoming) :
      Part env call s t .started (.rejected error)
  | repeats {upload : Upload} {answer : AnalysisJobAccepted} {row : SubmittedJob}
      (answers : Answers env call s answer upload.profile upload.content upload.identity row)
      (duplicate : answer.duplicate = true) (same : s.SameBut upload.name t) :
      Part env call s t (.received upload) (.answered answer)
  | looks {upload : Upload} (key : NewKey call upload.identity s) (state : t = s) :
      Part env call s t (.received upload) (.looked upload)
  | prepares {upload : Upload} {artifact : InputArtifact}
      (artifact_eq : artifactOf env call upload.content = .ok artifact) (state : t = s) :
      Part env call s t (.looked upload) (.prepared upload artifact)
  | rejects {point : CallPoint} {upload : Upload} {error : SubmissionError}
      (place : point = .received upload ∨ point = .looked upload)
      (same : s.SameBut upload.name t) : Part env call s t point (.rejected error)
  | creates {upload : Upload} {artifact : InputArtifact} {job : ScanJob}
      (jobId : job.jobId = s.host.nextJobId) (status : job.status = .queued)
      (artifact_eq : job.inputArtifact = artifact)
      (state : t = { s with host := (issued s.host).saved job }) :
      Part env call s t (.prepared upload artifact) (.created upload job)
  | uncreated {upload : Upload} {artifact : InputArtifact} {error : SubmissionError} {u : Store}
      (host : u.host = issued s.host ∨ ∃ job : ScanJob, job.jobId = s.host.nextJobId ∧
        u.host = (issued s.host).saved job)
      (rest : u = { s with host := u.host }) (same : u.SameBut upload.name t) :
      Part env call s t (.prepared upload artifact) (.rejected error)
  | places {upload : Upload} {job : ScanJob}
      (state : t = { s with
        rabJobs := s.rabJobs ++
          [submittedJob env call upload.content upload.identity job.jobId]
        queue := s.queue ++ [some job]
        incoming := Function.update s.incoming upload.name none
        directories := Function.update s.directories job.jobId (some (some upload.content)) }) :
      Part env call s t (.created upload job) (.stored upload job.jobId)
  | breaks {upload : Upload} {job : ScanJob} {error : SubmissionError}
      (host : t.host = s.host) (queue : t.queue = s.queue)
      (rabJobs : t.rabJobs = s.rabJobs ∨ t.rabJobs = s.rabJobs ++
        [submittedJob env call upload.content upload.identity job.jobId])
      (incoming : ∀ other, other ≠ upload.name → t.incoming other = s.incoming other)
      (directories : ∀ id, id ≠ job.jobId → t.directories id = s.directories id)
      (nextIncoming : t.nextIncoming = s.nextIncoming) :
      Part env call s t (.created upload job) (.broken job.jobId error)
  | answers {upload : Upload} {id : JobId} {answer : AnalysisJobAccepted}
      (answers : Answers env call s answer upload.profile upload.content upload.identity
        (submittedJob env call upload.content upload.identity id))
      (duplicate : answer.duplicate = false) (jobId : answer.jobId = id)
      (same : s.SameBut upload.name t) : Part env call s t (.stored upload id) (.answered answer)
  | unanswered {upload : Upload} {id : JobId} {error : SubmissionError}
      (same : s.SameBut upload.name t) :
      Part env call s t (.stored upload id) (.unanswered id error)

lemma arrives_of_received {profile : AnalysisProfile} {content : Bytes} {identity : Identity}
    (hchecked : checkRequest env call = .ok profile) (hname : s.incoming name = none)
    (hreceive : receive env call name s = .ok content t)
    (hidentify : identify env call content = .ok identity) :
    Arrives env call profile content identity := by
  cases hopened : call.fault .openIncoming with
  | some exc =>
      rw [receive, attempted_bind_of_some hopened] at hreceive
      cases hreceive
  | none =>
      obtain ⟨u, -, -, hrun⟩ := receive_cases env hopened hname
      rw [hreceive] at hrun
      cases hreceived : received env call with
      | error error =>
          rw [hreceived] at hrun
          cases hrun
      | ok other =>
          rw [hreceived] at hrun
          obtain ⟨rfl, -⟩ := EStateM.Result.ok.inj hrun
          exact ⟨hchecked, hopened, hreceived, hidentify⟩

/-- The object is received into a file of its own. -/
lemma next_started (hfree : s.incoming s.nextIncoming = none) :
    (∀ point t, CallPoint.next env call .started s = .ok point t →
        Part env call s t .started point) ∧
      ∀ error t, CallPoint.next env call .started s = .error error t →
        Part env call s t .started (.rejected error) := by
  rw [CallPoint.next]
  cases hchecked : checkRequest env call with
  | error error =>
      refine ⟨fun point t h => (by cases h), fun error' t h => ?_⟩
      change EStateM.Result.error (SubmissionError.protocol error) s = _ at h
      obtain ⟨-, rfl⟩ := EStateM.Result.error.inj h
      exact .turnedAway (.refl s) (.inl rfl)
  | ok profile =>
      set name := s.nextIncoming with hname
      set u : Store := { s with nextIncoming := name + 1 } with hu
      have hopen : s.SameBut name u := ⟨rfl, rfl, rfl, fun _ _ => rfl, rfl, Nat.le_succ _⟩
      set body : EStateM SubmissionError Store CallPoint := do
        let content ← receive env call name
        let identity ← lift (identify env call content)
        return .received ⟨name, profile, content, identity⟩ with hbody
      have hrun : (do
          let profile ← lift ((Except.ok profile).mapError SubmissionError.protocol)
          let name ← freshIncoming
          guarded call name do
            let content ← receive env call name
            let identity ← lift (identify env call content)
            return CallPoint.received ⟨name, profile, content, identity⟩) s =
          guarded call name body u := rfl
      rw [hrun]
      have hmoves : Moves (Store.SameBut name) body :=
        moves_then (receive_sameBut env call name) fun _ =>
          moves_then (.lift .refl _) fun _ => .pure .refl _
      have hguarded : Moves (Store.SameBut name) (guarded call name body) :=
        guarded_sameBut hmoves
      have hsame := hguarded u
      refine ⟨fun point t h => ?_, fun error t h => ?_⟩
      · rw [final_of_ok h] at hsame
        obtain ⟨content, v, hreceive, h⟩ := bind_eq_ok.1 (guarded_eq_ok.1 h)
        obtain ⟨identity, w, hidentify, h⟩ := bind_eq_ok.1 h
        obtain ⟨rfl, rfl⟩ := EStateM.Result.ok.inj h
        cases hidentified : identify env call content with
        | error error =>
            rw [hidentified] at hidentify
            cases hidentify
        | ok identity' =>
            rw [hidentified] at hidentify
            obtain ⟨rfl, rfl⟩ := EStateM.Result.ok.inj hidentify
            have harrives := arrives_of_received (s := u) hchecked hfree hreceive hidentified
            exact .arrives ⟨harrives, hsame.nextIncoming, receive_content hreceive⟩ rfl
              (hopen.trans hsame)
      · rw [final_of_error h] at hsame
        exact .turnedAway (hopen.trans hsame) (.inr hsame.nextIncoming)

/-! ## Under the lock -/

lemma Store.Sound.row_unique (hsound : s.Sound env) {row other : SubmittedJob}
    (hrow : row ∈ s.rabJobs) (hother : other ∈ s.rabJobs) (h : ¬row.Apart other) : row = other :=
  by_contra fun hne => h (hsound.apart.forall hrow hother hne)

lemma Store.Sound.find_row (hsound : s.Sound env) {row : SubmittedJob} (hrow : row ∈ s.rabJobs) :
    s.rabJobs.find? (fun other => decide (other.jobId = row.jobId)) = some row := by
  have hsome : (s.rabJobs.find? fun other => decide (other.jobId = row.jobId)).isSome :=
    List.find?_isSome.2 ⟨row, hrow, decide_eq_true rfl⟩
  obtain ⟨found, hfound⟩ := Option.isSome_iff_exists.1 hsome
  have hid := List.find?_some hfound
  rw [decide_eq_true_eq] at hid
  rw [hfound, hsound.row_unique (List.mem_of_find?_eq_some hfound) hrow fun h => h.1 hid]

/-- The answer for a job that has a row. -/
lemma accepted_of_mem (hsound : s.Sound env) {row : SubmittedJob} (hrow : row ∈ s.rabJobs)
    {duplicate : Bool} {result : AnalysisJobAccepted}
    (h : accepted call row.jobId duplicate s = .ok result t) :
    result.jobId = row.jobId ∧ result.objectSha256 = row.verifiedSha256 ∧
      result.profile = row.profile ∧ result.duplicate = duplicate ∧ t = s := by
  obtain ⟨job, hjob, hid, hdigest⟩ := hsound.stored row hrow
  obtain ⟨-, -, hok⟩ | ⟨-, error, herror⟩ :=
    accepted_of_row call duplicate hjob (hsound.find_row hrow)
  · obtain ⟨rfl, rfl⟩ := EStateM.Result.ok.inj (hok.symm.trans h)
    exact ⟨hid, hdigest, rfl, rfl, rfl⟩
  · cases herror.symm.trans h

lemma answerExisting_eq_ok {identity : Identity} {found : Option AnalysisJobAccepted}
    (h : answerExisting call name identity s = .ok found t) :
    (found = none ∧ NewKey call identity s ∧ t = s) ∨ ∃ result, ∃ existing ∈ s.rabJobs,
      found = some result ∧ existing.clientId = call.client.clientId ∧
        existing.idempotencyKey = identity.idempotencyKey ∧
        existing.fingerprint = identity.fingerprint ∧
        accepted call existing.jobId true (s.setIncoming name none) = .ok result t := by
  cases hlookup : call.fault .lookup with
  | some exc => cases (answerExisting_of_fault hlookup).symm.trans h
  | none =>
      cases hkey : findKey s.rabJobs call.client.clientId identity.idempotencyKey with
      | none =>
          obtain ⟨rfl, rfl⟩ :=
            EStateM.Result.ok.inj ((answerExisting_of_new hlookup hkey).symm.trans h)
          exact .inl ⟨rfl, findKey_eq_none_iff.1 hkey, rfl⟩
      | some existing =>
          by_cases hprint : existing.fingerprint = identity.fingerprint
          · rw [answerExisting_of_repeat name hlookup hkey hprint] at h
            obtain ⟨⟨⟩, u, hremoved, h⟩ := bind_eq_ok.1 h
            obtain ⟨-, hremoved⟩ := attempted_bind_eq_ok.1 hremoved
            obtain ⟨-, rfl⟩ := EStateM.Result.ok.inj hremoved
            obtain ⟨result, v, haccepted, h⟩ := bind_eq_ok.1 h
            obtain ⟨rfl, rfl⟩ := EStateM.Result.ok.inj h
            have hfound := List.find?_some hkey
            rw [decide_eq_true_eq] at hfound
            exact .inr ⟨result, existing, List.mem_of_find?_eq_some hkey, rfl, hfound.1, hfound.2,
              hprint, haccepted⟩
          · cases (answerExisting_of_conflict hlookup hkey hprint).symm.trans h

variable {upload : Upload}

/-- The key is looked for. -/
lemma next_received (hsound : s.Sound env) (hheld : upload.Held env call s) :
    (∀ point t, CallPoint.next env call (.received upload) s = .ok point t →
        Part env call s t (.received upload) point) ∧
      ∀ error t, CallPoint.next env call (.received upload) s = .error error t →
        Part env call s t (.received upload) (.rejected error) := by
  rw [CallPoint.next]
  refine ⟨fun point t h => ?_, fun error t h => ?_⟩
  · obtain ⟨found, u, hexisting, hend⟩ := bind_eq_ok.1 (guarded_eq_ok.1 h)
    clear h
    obtain ⟨rfl, hkey, rfl⟩ | ⟨result, row, hrow, rfl, hclient, hkey, hprint, haccepted⟩ :=
      answerExisting_eq_ok hexisting
    · obtain ⟨rfl, rfl⟩ := EStateM.Result.ok.inj hend
      exact .looks hkey rfl
    · obtain ⟨rfl, rfl⟩ := EStateM.Result.ok.inj hend
      have hsound' : (s.setIncoming upload.name none).Sound env := by
        refine ⟨hsound.directories, fun name hname => ?_, hsound.issued, hsound.apart,
          hsound.stored, hsound.queued, hsound.distinct⟩
        by_cases heq : name = upload.name
        · rw [heq, Store.setIncoming_self]
        · exact (Function.update_of_ne heq ..).trans (hsound.incoming name hname)
      obtain ⟨hid, hdigest, hprofile, hduplicate, rfl⟩ := accepted_of_mem hsound' hrow haccepted
      refine .repeats ⟨hheld.arrives, hrow, hclient, hkey, hprint, hid, hprofile, hdigest, ?_⟩
        hduplicate (.setIncoming s upload.name none)
      rw [hduplicate]
      exact fun hfalse => by cases hfalse
  · have hmoves : Moves (Store.SameBut upload.name) (guarded call upload.name
        (answerExisting call upload.name upload.identity >>= fun found =>
          pure (found.elim (CallPoint.looked upload) .answered))) :=
      guarded_sameBut (moves_then (answerExisting_sameBut _) fun _ => .pure .refl _)
    have hsame := hmoves s
    rw [final_of_error h] at hsame
    exact .rejects (.inl rfl) hsame

/-- The profile and the queue are looked at. -/
lemma next_looked :
    (∀ point t, CallPoint.next env call (.looked upload) s = .ok point t →
        Part env call s t (.looked upload) point) ∧
      ∀ error t, CallPoint.next env call (.looked upload) s = .error error t →
        Part env call s t (.looked upload) (.rejected error) := by
  rw [CallPoint.next]
  refine ⟨fun point t h => ?_, fun error t h => ?_⟩
  · obtain ⟨artifact, u, hprepare, h⟩ := bind_eq_ok.1 (guarded_eq_ok.1 h)
    obtain ⟨rfl, rfl⟩ := EStateM.Result.ok.inj h
    have hstate := prepare_state env call upload.profile upload.content s
    rw [final_of_ok hprepare] at hstate
    subst hstate
    exact .prepares (prepare_eq_ok_iff.1 hprepare).artifact rfl
  · have hmoves : Moves (Store.SameBut upload.name) (guarded call upload.name
        (prepare env call upload.profile upload.content >>= fun artifact =>
          pure (CallPoint.prepared upload artifact))) :=
      guarded_sameBut (moves_then (prepare_sameBut _ _) fun _ => .pure .refl _)
    have hsame := hmoves s
    rw [final_of_error h] at hsame
    exact .rejects (.inr rfl) hsame

/-- The job is created. -/
lemma next_prepared {artifact : InputArtifact} :
    (∀ point t, CallPoint.next env call (.prepared upload artifact) s = .ok point t →
        Part env call s t (.prepared upload artifact) point) ∧
      ∀ error t, CallPoint.next env call (.prepared upload artifact) s = .error error t →
        Part env call s t (.prepared upload artifact) (.rejected error) := by
  rw [CallPoint.next]
  refine ⟨fun point t h => ?_, fun error t h => ?_⟩
  · obtain ⟨job, u, hcreate, h⟩ := bind_eq_ok.1 (guarded_eq_ok.1 h)
    obtain ⟨rfl, rfl⟩ := EStateM.Result.ok.inj h
    cases hcreated : env.scan.fault s.host.nextJobId .saveCreated with
    | some exc =>
        rw [onJobs, createQueued_of_fault hcreated] at hcreate
        cases hcreate
    | none =>
        obtain ⟨job', hid, hartifact, -, ⟨-, -, hstatus, hrun⟩ | ⟨-, exc, hrun⟩⟩ :=
          createQueued_of_created artifact artifact.source upload.profile.analyzers hcreated
        · rw [onJobs, hrun] at hcreate
          obtain ⟨rfl, rfl⟩ := EStateM.Result.ok.inj hcreate
          exact .creates hid hstatus hartifact rfl
        · rw [onJobs, hrun] at hcreate
          cases hcreate
  · obtain ⟨error', u, h, hstate⟩ := guarded_eq_error h
    have hsame : u.SameBut upload.name t := by
      obtain rfl | rfl := hstate
      · exact .refl _
      · exact .setIncoming u upload.name none
    obtain h | ⟨job, v, -, h⟩ := bind_eq_error.1 h
    · cases hcreated : env.scan.fault s.host.nextJobId .saveCreated with
      | some exc =>
          rw [onJobs, createQueued_of_fault hcreated] at h
          obtain ⟨-, rfl⟩ := EStateM.Result.error.inj h
          exact .uncreated (.inl rfl) rfl hsame
      | none =>
          obtain ⟨job, hid, -, -, ⟨-, -, -, hrun⟩ | ⟨-, exc, hrun⟩⟩ :=
            createQueued_of_created artifact artifact.source upload.profile.analyzers hcreated
          · rw [onJobs, hrun] at h
            cases h
          · rw [onJobs, hrun] at h
            obtain ⟨-, rfl⟩ := EStateM.Result.error.inj h
            exact .uncreated (.inr ⟨job, hid, rfl⟩) rfl hsame
    · cases h

/-- A call of the database or the file system that looks before it writes. -/
lemma checked_eq_error {fault : Option Exc} {c : Store → Prop} [DecidablePred c]
    {refusal error : SubmissionError} {f : Store → Store}
    (h : (attempted fault >>= fun _ => (get : EStateM SubmissionError Store Store) >>= fun s =>
      if c s then throw refusal else modify f) s = .error error t) : t = s := by
  cases fault with
  | some exc =>
      rw [attempted_bind_of_some rfl] at h
      exact (EStateM.Result.error.inj h).2.symm
  | none =>
      rw [attempted_bind_eq rfl, get_bind_apply] at h
      by_cases hc : c s
      · rw [if_pos hc] at h
        exact (EStateM.Result.error.inj h).2.symm
      · rw [if_neg hc] at h
        cases h

lemma moveUpload_eq_error {id : JobId} {error : SubmissionError}
    (h : moveUpload call name id s = .error error t) : t = s := by
  rw [moveUpload] at h
  cases hfault : call.fault .rename with
  | some exc =>
      rw [attempted_bind_of_some hfault] at h
      exact (EStateM.Result.error.inj h).2.symm
  | none =>
      rw [attempted_bind_eq hfault, get_bind_apply] at h
      cases hfile : s.incoming name with
      | none =>
          rw [hfile] at h
          exact (EStateM.Result.error.inj h).2.symm
      | some content =>
          rw [hfile] at h
          cases h

/-- A job that could not be placed may have its directory, its upload and its row. -/
lemma placeJob_eq_error {content : Bytes} {identity : Identity} {job : ScanJob}
    {error : SubmissionError} (h : placeJob env call name content identity job s = .error error t) :
    (t.rabJobs = s.rabJobs ∨
        t.rabJobs = s.rabJobs ++ [submittedJob env call content identity job.jobId]) ∧
      t.host = s.host ∧ t.queue = s.queue ∧
      (∀ other, other ≠ name → t.incoming other = s.incoming other) ∧
      (∀ id, id ≠ job.jobId → t.directories id = s.directories id) ∧
      t.nextIncoming = s.nextIncoming := by
  have hupdate (directories : JobId → Option (Option Bytes)) (object : Option (Option Bytes)) :
      ∀ id, id ≠ job.jobId →
        Function.update directories job.jobId object id = directories id :=
    fun id hne => Function.update_of_ne hne ..
  obtain h | ⟨⟨⟩, s₁, hmade, h⟩ := bind_eq_error.1 h
  · obtain rfl := checked_eq_error h
    exact ⟨.inl rfl, rfl, rfl, fun _ _ => rfl, fun _ _ => rfl, rfl⟩
  obtain ⟨-, -, rfl⟩ := makeDirectory_eq_ok.1 hmade
  obtain h | ⟨⟨⟩, s₂, hmoved, h⟩ := bind_eq_error.1 h
  · obtain rfl := moveUpload_eq_error h
    exact ⟨.inl rfl, rfl, rfl, fun _ _ => rfl, hupdate _ _, rfl⟩
  obtain ⟨-, received, -, rfl⟩ := moveUpload_eq_ok.1 hmoved
  have hdirectories : ∀ id, id ≠ job.jobId → Function.update (Function.update s.directories
      job.jobId (some none)) job.jobId (some (some received)) id = s.directories id :=
    fun id hne => (hupdate _ _ id hne).trans (hupdate _ _ id hne)
  have hincoming : ∀ other, other ≠ name →
      Function.update s.incoming name none other = s.incoming other :=
    fun other hne => Function.update_of_ne hne ..
  obtain h | ⟨⟨⟩, s₃, hsaved, h⟩ := bind_eq_error.1 h
  · obtain rfl := checked_eq_error h
    exact ⟨.inl rfl, rfl, rfl, hincoming, hdirectories, rfl⟩
  obtain ⟨-, -, rfl⟩ := saveRabJob_eq_ok.1 hsaved
  obtain h | ⟨⟨⟩, s₄, hput, h⟩ := bind_eq_error.1 h
  · obtain rfl := checked_eq_error h
    exact ⟨.inr rfl, rfl, rfl, hincoming, hdirectories, rfl⟩
  · cases h

/-- The job is placed. -/
lemma next_created {job : ScanJob} (hheld : upload.Held env call s) :
    (∀ point t, CallPoint.next env call (.created upload job) s = .ok point t →
        Part env call s t (.created upload job) point) ∧
      ∀ error t, CallPoint.next env call (.created upload job) s = .error error t →
        Part env call s t (.created upload job) (.broken job.jobId error) := by
  rw [CallPoint.next]
  refine ⟨fun point t h => ?_, fun error t h => ?_⟩
  · obtain ⟨id, u, hplace, h⟩ := bind_eq_ok.1 (guarded_eq_ok.1 h)
    obtain ⟨rfl, rfl⟩ := EStateM.Result.ok.inj h
    obtain ⟨-, rfl, hstate⟩ := placeJob_of_ok hheld.file hplace
    exact .places hstate
  · obtain ⟨error', u, h, hstate⟩ := guarded_eq_error h
    obtain h | ⟨id, v, -, h⟩ := bind_eq_error.1 h
    · obtain ⟨hrows, hhost, hqueue, hincoming, hdirectories, hnext⟩ := placeJob_eq_error h
      obtain rfl | rfl := hstate
      · exact .breaks hhost hqueue hrows hincoming hdirectories hnext
      · refine .breaks hhost hqueue hrows (fun other hne => ?_) hdirectories hnext
        exact (Function.update_of_ne hne ..).trans (hincoming other hne)
    · cases h

/-- The job is read again for the answer. -/
lemma next_stored (hsound : s.Sound env) {id : JobId}
    (hpoint : CallPoint.Sound env call s (.stored upload id)) :
    (∀ point t, CallPoint.next env call (.stored upload id) s = .ok point t →
        Part env call s t (.stored upload id) point) ∧
      ∀ error t, CallPoint.next env call (.stored upload id) s = .error error t →
        Part env call s t (.stored upload id) (.unanswered id error) := by
  obtain ⟨harrives, -, hrow⟩ := hpoint
  rw [CallPoint.next]
  refine ⟨fun point t h => ?_, fun error t h => ?_⟩
  · obtain ⟨result, u, hanswer, h⟩ := bind_eq_ok.1 (guarded_eq_ok.1 h)
    obtain ⟨rfl, rfl⟩ := EStateM.Result.ok.inj h
    obtain ⟨read, v, haccepted, hanswer⟩ := bind_eq_ok.1 hanswer
    obtain ⟨rfl, rfl⟩ := EStateM.Result.ok.inj hanswer
    obtain ⟨hid, hdigest, hprofile, hduplicate, rfl⟩ := accepted_of_mem hsound hrow haccepted
    exact .answers ⟨harrives, hrow, rfl, rfl, rfl, hid, hprofile, hdigest,
      fun _ => by rw [hid]; rfl⟩ hduplicate hid (.refl _)
  · have hmoves : Moves (Store.SameBut upload.name) (guarded call upload.name
        (answer call (.stored id) >>= fun result => pure (CallPoint.answered result))) :=
      guarded_sameBut (moves_then (moves_then (accepted_sameBut _ _) fun _ => .pure .refl _)
        fun _ => .pure .refl _)
    have hsame := hmoves s
    rw [final_of_error h] at hsame
    exact .unanswered hsame

/-- What a part does is on the list. -/
lemma next_part {point : CallPoint} (hsound : s.Sound env) (hpoint : point.Sound env call s)
    (hclosed : point.closed = false) :
    (∀ point' t, point.next env call s = .ok point' t → Part env call s t point point') ∧
      ∀ error t, point.next env call s = .error error t →
        Part env call s t point (point.failed error) := by
  cases point with
  | started => exact next_started (hsound.incoming _ le_rfl)
  | received upload => exact next_received hsound hpoint
  | looked upload => exact next_looked
  | prepared upload artifact => exact next_prepared
  | created upload job => exact next_created hpoint.1
  | stored upload id => exact next_stored hsound hpoint
  | answered result => cases hclosed
  | rejected error => cases hclosed
  | broken id error => cases hclosed
  | unanswered id error => cases hclosed

/-! ## The parts put together -/

/-- The parts of a call that no other thread disturbs, one after the other. -/
def runParts (env : SubmitEnv) (call : Submission) :
    ℕ → CallPoint → EStateM SubmissionError Store CallPoint
  | 0, point => pure point
  | parts + 1, point => do runParts env call parts (← point.next env call)

lemma guarded_error {α : Type} {x : EStateM SubmissionError Store α} {error : SubmissionError}
    (h : x s = .error error t) : guarded call name x s =
      .error ((call.fault .removeRejected).elim error .escaped)
        (if call.fault .removeRejected = none then t.setIncoming name none else t) := by
  rw [guarded, tryCatch_apply, h]
  cases call.fault .removeRejected <;> rfl

variable (call name) in
/-- What cleans up behind two parts is the same for both. -/
lemma guarded_then {α β γ : Type} {x : EStateM SubmissionError Store α} {c : α → β}
    {k : β → EStateM SubmissionError Store γ} {g : α → EStateM SubmissionError Store γ}
    (h : ∀ a, k (c a) = guarded call name (g a)) :
    (guarded call name (x >>= fun a => pure (c a)) >>= k) = guarded call name (x >>= g) := by
  funext s
  cases hx : x s with
  | ok a t =>
      have hpart : guarded call name (x >>= fun a => pure (c a)) s = .ok (c a) t :=
        guarded_of_ok (bind_of_ok hx _)
      rw [bind_of_ok hpart, h, guarded, guarded, tryCatch_apply, tryCatch_apply, bind_of_ok hx]
  | error error t =>
      rw [bind_of_error (guarded_error (bind_of_error hx _)), guarded_error (bind_of_error hx _)]

lemma guarded_pure {α : Type} (a : α) : guarded call name (pure a) = pure a := rfl

variable (env call)

lemma runParts_closed {point : CallPoint} (h : point.closed = true) (parts : ℕ) :
    runParts env call parts point = pure point := by
  induction parts with
  | zero => rfl
  | succ parts ih =>
      have hnext : point.next env call = pure point := by
        cases point <;> first | rfl | cases h
      rw [runParts, hnext]
      funext s
      rw [pure_bind_apply, ih]

lemma runParts_stored (upload : Upload) (id : JobId) (parts : ℕ) :
    runParts env call (parts + 1) (.stored upload id) =
      guarded call upload.name (answer call (.stored id) >>= fun result =>
        pure (.answered result)) := by
  refine guarded_then call upload.name fun result => ?_
  rw [runParts_closed env call rfl, guarded_pure]

lemma runParts_created (upload : Upload) (job : ScanJob) (parts : ℕ) :
    runParts env call (parts + 2) (.created upload job) =
      guarded call upload.name
        (placeJob env call upload.name upload.content upload.identity job >>= fun id =>
          answer call (.stored id) >>= fun result => pure (.answered result)) :=
  guarded_then call upload.name fun id => runParts_stored env call upload id parts

lemma runParts_prepared (upload : Upload) (artifact : InputArtifact) (parts : ℕ) :
    runParts env call (parts + 3) (.prepared upload artifact) =
      guarded call upload.name
        (onJobs (ScanService.createQueued env.scan artifact artifact.source
            upload.profile.analyzers) >>= fun job =>
          placeJob env call upload.name upload.content upload.identity job >>= fun id =>
            answer call (.stored id) >>= fun result => pure (.answered result)) :=
  guarded_then call upload.name fun job => runParts_created env call upload job parts

lemma runParts_looked (upload : Upload) (parts : ℕ) :
    runParts env call (parts + 4) (.looked upload) =
      guarded call upload.name
        (prepare env call upload.profile upload.content >>= fun artifact =>
          onJobs (ScanService.createQueued env.scan artifact artifact.source
              upload.profile.analyzers) >>= fun job =>
            placeJob env call upload.name upload.content upload.identity job >>= fun id =>
              answer call (.stored id) >>= fun result => pure (.answered result)) :=
  guarded_then call upload.name fun artifact => runParts_prepared env call upload artifact parts

lemma runParts_received (upload : Upload) (parts : ℕ) :
    runParts env call (parts + 5) (.received upload) =
      guarded call upload.name
        (locked env call upload.name upload.profile upload.content upload.identity >>= fun ended =>
          answer call ended >>= fun result => pure (.answered result)) := by
  have hthen : runParts env call (parts + 5) (.received upload) =
      guarded call upload.name (answerExisting call upload.name upload.identity >>= fun found =>
        found.elim
          (prepare env call upload.profile upload.content >>= fun artifact =>
            onJobs (ScanService.createQueued env.scan artifact artifact.source
                upload.profile.analyzers) >>= fun job =>
              placeJob env call upload.name upload.content upload.identity job >>= fun id =>
                answer call (.stored id) >>= fun result => pure (.answered result))
          fun result => pure (.answered result)) := by
    refine guarded_then call upload.name fun found => ?_
    cases found with
    | none => exact runParts_looked env call upload parts
    | some result => exact runParts_closed env call rfl _
  rw [hthen, locked, bind_assoc]
  congr 2
  funext found
  cases found with
  | none => simp only [Option.elim_none, storeJob, bind_assoc, pure_bind]
  | some result => simp only [Option.elim_some, pure_bind, answer]

lemma runParts_upload (profile : AnalysisProfile) (name parts : ℕ) :
    (guarded call name (receive env call name >>= fun content =>
        lift (identify env call content) >>= fun identity =>
          pure (CallPoint.received ⟨name, profile, content, identity⟩)) >>=
      runParts env call (parts + 5)) =
    guarded call name (submitUpload env call profile name) >>= fun result =>
      pure (.answered result) := by
  have hparts := guarded_then call name
    (x := receive env call name >>= fun content =>
      lift (identify env call content) >>= fun identity => pure (content, identity))
    (c := fun found => CallPoint.received ⟨name, profile, found.1, found.2⟩)
    (k := runParts env call (parts + 5)) fun found => runParts_received env call _ parts
  have hupload := guarded_then call name
    (x := submitUpload env call profile name) (c := id)
    (k := fun result => pure (CallPoint.answered result))
    (g := fun result => pure (CallPoint.answered result)) fun _ => rfl
  simp only [bind_assoc, pure_bind, id_eq, bind_pure] at hparts hupload
  rw [hparts, hupload, submitUpload]
  simp only [bind_assoc]

/-- Without other threads the parts are `submit_stream`. -/
theorem submitStream_eq (parts : ℕ) :
    runParts env call (parts + 6) .started =
      submitStream env call >>= fun result => pure (.answered result) := by
  rw [runParts, CallPoint.next, submitStream]
  simp only [bind_assoc]
  congr 1
  funext profile
  congr 1
  funext name
  exact runParts_upload env call profile name parts

end Parts

end RABService

end AVBox
