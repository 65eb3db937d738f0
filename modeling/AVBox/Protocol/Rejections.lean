import AVBox.Protocol.Submission

/-!
# Rejected submissions

The clause of `submit_stream` that cleans up after an exception removes the file that the object
was received into, and nothing else.  `rejected_traceless_iff` says for which calls that is
enough: once the job is stored, nothing that fails is undone.

* `Store.SameBut` is what everything before the first save of the job leaves as it was.
* `UploadEnd` lists the ways in which the `try` statement ends.
-/

namespace AVBox

open Program

namespace RABService

/-! ## What a call does to the stores -/

/-- The tables, the queue and the upload root are the same. -/
structure Store.SameStores (s t : Store) : Prop where
  jobs : t.host.jobs = s.host.jobs
  rabJobs : t.rabJobs = s.rabJobs
  queue : t.queue = s.queue
  incoming : t.incoming = s.incoming
  directories : t.directories = s.directories

/-- They are the same but for the file of the call. -/
structure Store.SameBut (name : ℕ) (s t : Store) : Prop where
  host : t.host = s.host
  rabJobs : t.rabJobs = s.rabJobs
  queue : t.queue = s.queue
  incoming : ∀ other, other ≠ name → t.incoming other = s.incoming other
  directories : t.directories = s.directories
  nextIncoming : s.nextIncoming ≤ t.nextIncoming

/-- What `uuid4` has not handed out yet belongs to nothing. -/
structure Store.Fresh (s : Store) : Prop where
  jobs : ∀ id, s.host.nextJobId ≤ id → s.host.jobs id = none
  directories : ∀ id, s.host.nextJobId ≤ id → s.directories id = none
  rabJobs : ∀ row ∈ s.rabJobs, row.jobId < s.host.nextJobId
  incoming : ∀ name, s.nextIncoming ≤ name → s.incoming name = none

namespace Store.SameBut

variable {name : ℕ} {s t u : Store}

lemma refl (s : Store) : s.SameBut name s := ⟨rfl, rfl, rfl, fun _ _ => rfl, rfl, le_rfl⟩

lemma trans (h : s.SameBut name t) (h' : t.SameBut name u) : s.SameBut name u where
  host := h'.host.trans h.host
  rabJobs := h'.rabJobs.trans h.rabJobs
  queue := h'.queue.trans h.queue
  incoming other hother := (h'.incoming other hother).trans (h.incoming other hother)
  directories := h'.directories.trans h.directories
  nextIncoming := h.nextIncoming.trans h'.nextIncoming

lemma setIncoming (s : Store) (name : ℕ) (content : Option Bytes) :
    s.SameBut name (s.setIncoming name content) where
  host := rfl
  rabJobs := rfl
  queue := rfl
  incoming _ hother := Function.update_of_ne hother ..
  directories := rfl
  nextIncoming := le_rfl

/-- The stores are the same if the file is as well. -/
lemma sameStores_iff (h : s.SameBut name t) :
    s.SameStores t ↔ t.incoming name = s.incoming name := by
  refine ⟨fun hsame => congrFun hsame.incoming name, fun hname => ?_⟩
  refine ⟨by rw [h.host], h.rabJobs, h.queue, funext fun other => ?_, h.directories⟩
  by_cases hother : other = name
  · rw [hother, hname]
  · exact h.incoming other hother

end Store.SameBut

section Receiving

variable {env : SubmitEnv} {call : Submission} {name : ℕ} {s t : Store}

lemma attempted_bind_eq {α : Type} {fault : Option Exc}
    {f : Unit → EStateM SubmissionError Store α} (h : fault = none) :
    (attempted fault >>= f) = f () := by
  rw [h]
  rfl

lemma moves_attempted (fault : Option Exc) :
    Moves (Store.SameBut name) (attempted fault) := .raiseIf .refl _

lemma moves_setIncoming (content : Store → Option Bytes) :
    Moves (Store.SameBut name)
      (modify fun s => s.setIncoming name (content s) : EStateM SubmissionError Store Unit) :=
  .modify fun s => .setIncoming s name _

lemma moves_then {α β : Type} {x : EStateM SubmissionError Store α}
    {f : α → EStateM SubmissionError Store β} (hx : Moves (Store.SameBut name) x)
    (hf : ∀ a, Moves (Store.SameBut name) (f a)) : Moves (Store.SameBut name) (x >>= f) :=
  .bind (fun _ _ _ => .trans) hx hf

lemma receiveChunks_sameBut (number : ℕ) (content : Bytes) (reads : List (Except Exc Bytes)) :
    Moves (Store.SameBut name) (receiveChunks env call name number content reads) := by
  induction reads generalizing number content with
  | nil => exact .pure .refl _
  | cons read reads ih =>
      cases read with
      | error exc => exact .throw .refl _
      | ok chunk =>
          refine .ite (.pure .refl _) (.ite (.throw .refl _) ?_)
          exact moves_then (moves_attempted _) fun _ =>
            moves_then (moves_setIncoming _) fun _ => ih _ _

variable (env call name) in
lemma receive_sameBut : Moves (Store.SameBut name) (receive env call name) := by
  refine moves_then (moves_attempted _) fun _ => moves_then (.get .refl) fun s => ?_
  refine .ite (.throw .refl _) (moves_then (moves_setIncoming _) fun _ => ?_)
  exact moves_then (receiveChunks_sameBut _ _ _) fun _ =>
    moves_then (moves_attempted _) fun _ => .pure .refl _

lemma removeIncoming_sameBut (fault : Option Exc) :
    Moves (Store.SameBut name) (removeIncoming fault name) :=
  moves_then (moves_attempted _) fun _ => moves_setIncoming _

lemma accepted_sameBut (id : JobId) (duplicate : Bool) :
    Moves (Store.SameBut name) (accepted call id duplicate) := by
  refine moves_then (moves_attempted _) fun _ => moves_then (.get .refl) fun s => ?_
  refine moves_then (moves_attempted _) fun _ => moves_then (.get .refl) fun t => ?_
  cases s.host.jobs id with
  | none => exact .throw .refl _
  | some job =>
      cases t.rabJobs.find? (·.jobId = id) with
      | none => exact .throw .refl _
      | some record => exact .pure .refl _

lemma answerExisting_sameBut (identity : Identity) :
    Moves (Store.SameBut name) (answerExisting call name identity) := by
  refine moves_then (moves_attempted _) fun _ => moves_then (.get .refl) fun s => ?_
  cases findKey s.rabJobs call.client.clientId identity.idempotencyKey with
  | none => exact .pure .refl _
  | some existing =>
      refine .ite (.throw .refl _) (moves_then (removeIncoming_sameBut _) fun _ => ?_)
      exact moves_then (accepted_sameBut _ _) fun _ => .pure .refl _

lemma prepare_sameBut (profile : AnalysisProfile) (content : Bytes) :
    Moves (Store.SameBut name) (prepare env call profile content) := by
  refine moves_then (moves_attempted _) fun _ => moves_then (.get .refl) fun s => ?_
  refine moves_then (.lift .refl _) fun available => .ite (.throw .refl _) ?_
  exact .ite (.throw .refl _) (moves_then (moves_attempted _) fun _ => .lift .refl _)

/-! ## What a call goes by -/

variable (env call)

/-- What the loop over the chunks comes to. -/
def transfer : ℕ → Bytes → List (Except Exc Bytes) → Except SubmissionError Bytes
  | _, content, [] => .ok content
  | _, _, .error exc :: _ => .error (.escaped exc)
  | number, content, .ok chunk :: reads =>
      if chunk = [] then .ok content
      else if (content ++ chunk).length > env.maximumUploadBytes then
        .error (.protocol objectTooLarge)
      else match call.fault (.write number) with
        | some exc => .error (.escaped exc)
        | none => transfer (number + 1) (content ++ chunk) reads

/-- The content that is received through an open file. -/
def received : Except SubmissionError Bytes := do
  let content ← transfer env call 0 [] call.reads
  match call.fault .sync with
  | some exc => .error (.escaped exc)
  | none => .ok content

/-- The object comes in under a profile, and its digest is the declared one. -/
structure Arrives (profile : AnalysisProfile) (content : Bytes) (identity : Identity) : Prop where
  checked : checkRequest env call = .ok profile
  opened : call.fault .openIncoming = none
  received : received env call = .ok content
  identified : identify env call content = .ok identity

/-- The profile can be run, and the queue has room. -/
structure Prepares (profile : AnalysisProfile) (content : Bytes) (s : Store)
    (artifact : InputArtifact) : Prop where
  statuses : call.fault .statuses = none
  available : ∀ analyzer ∈ profile.analyzers, analyzerAvailable env call s.host analyzer = .ok true
  room : s.queue.length < env.queueCapacity
  chmod : call.fault .chmod = none
  artifact : artifactOf env call content = .ok artifact

/-- The call comes to store a job, and its first save succeeds. -/
def Stores (s : Store) : Prop :=
  ∃ profile content identity artifact, Arrives env call profile content identity ∧
    call.fault .lookup = none ∧
    findKey s.rabJobs call.client.clientId identity.idempotencyKey = none ∧
    Prepares env call profile content s artifact ∧
    env.scan.fault s.host.nextJobId .saveCreated = none

/-- The call repeats an earlier one. -/
def Repeats (s : Store) : Prop :=
  ∃ profile content identity existing, Arrives env call profile content identity ∧
    call.fault .lookup = none ∧
    findKey s.rabJobs call.client.clientId identity.idempotencyKey = some existing ∧
    existing.fingerprint = identity.fingerprint

/-- Nothing fails behind the first save of the job. -/
structure Completes (s : Store) : Prop where
  staged : env.scan.fault s.host.nextJobId .saveStaged = none
  queued : env.scan.fault s.host.nextJobId .saveQueued = none
  mkdir : call.fault .mkdir = none
  rename : call.fault .rename = none
  saveRabJob : call.fault .saveRabJob = none
  put : call.fault .put = none
  readJob : call.fault .readJob = none
  readRecord : call.fault .readRecord = none

/-- The call is rejected before it stores a job, when the file it was received into is there. -/
def Strands (s : Store) : Prop :=
  (∃ profile, checkRequest env call = .ok profile) ∧ call.fault .openIncoming = none ∧
    ¬Stores env call s ∧ (Repeats env call s → call.fault .removeDuplicate ≠ none)

variable {env call}

variable (env call) in
lemma receiveChunks_eq (number : ℕ) (content : Bytes) (reads : List (Except Exc Bytes))
    (hfile : (s.incoming name).isSome) : ∃ t, (t.incoming name).isSome ∧
      receiveChunks env call name number content reads s =
        lift (transfer env call number content reads) t := by
  induction reads generalizing number content s with
  | nil => exact ⟨s, hfile, rfl⟩
  | cons read reads ih =>
      cases read with
      | error exc => exact ⟨s, hfile, rfl⟩
      | ok chunk =>
          rw [receiveChunks, transfer]
          by_cases hend : chunk = []
          · rw [if_pos hend, if_pos hend]
            exact ⟨s, hfile, rfl⟩
          by_cases hlarge : (content ++ chunk).length > env.maximumUploadBytes
          · rw [if_neg hend, if_neg hend, if_pos hlarge, if_pos hlarge]
            exact ⟨s, hfile, rfl⟩
          rw [if_neg hend, if_neg hend, if_neg hlarge, if_neg hlarge]
          cases hwrite : call.fault (.write number) with
          | some exc => exact ⟨s, hfile, rfl⟩
          | none =>
              refine ih (s := s.setIncoming name (some (content ++ chunk))) _ _ ?_
              simp [Store.setIncoming]

variable (env) in
/-- The file is there once it has been opened. -/
lemma receive_eq (hopened : call.fault .openIncoming = none) (hname : s.incoming name = none) :
    ∃ t, (t.incoming name).isSome ∧ receive env call name s = lift (received env call) t := by
  have hfile : ((s.setIncoming name (some [])).incoming name).isSome := by
    simp [Store.setIncoming]
  obtain ⟨t, hthere, hchunks⟩ := receiveChunks_eq env call 0 [] call.reads hfile
  refine ⟨t, hthere, ?_⟩
  have hreceive : receive env call name s = (receiveChunks env call name 0 [] call.reads >>=
      fun content => attempted (call.fault .sync) >>= fun _ => pure content)
        (s.setIncoming name (some [])) := by
    rw [receive, attempted_bind_eq hopened, get_bind_apply, hname, if_neg (by simp)]
    rfl
  rw [hreceive, received]
  cases htransfer : transfer env call 0 [] call.reads with
  | error e =>
      rw [htransfer] at hchunks
      exact bind_of_error hchunks _
  | ok content =>
      rw [htransfer] at hchunks
      rw [bind_of_ok hchunks]
      cases call.fault .sync <;> rfl

/-! ## The section under the lock -/

lemma attempted_bind_of_some {α : Type} {exc : Exc} {fault : Option Exc}
    {f : Unit → EStateM SubmissionError Store α} (h : fault = some exc) (s : Store) :
    (attempted fault >>= f) s = .error (.escaped exc) s := by
  rw [h]
  rfl

lemma mem_unavailable {analyzers : List String} {available : List Bool}
    {test : String → Except Exc Bool} (h : analyzers.mapM test = .ok available) :
    ((analyzers.zip available).filter (!·.2)).map Prod.fst = [] ↔
      ∀ analyzer ∈ analyzers, test analyzer = .ok true := by
  have hall := Fallible.mapM_eq_ok_iff.1 h
  clear h
  induction hall with
  | nil => simp
  | @cons analyzer value analyzers available hfirst _ ih =>
      cases value <;> simp [hfirst, ih]

variable (env call) in
/-- Nothing is written before the job is stored. -/
lemma prepare_state (profile : AnalysisProfile) (content : Bytes) :
    Moves Eq (prepare env call profile content) := by
  refine .bind (fun _ _ _ => .trans) (.raiseIf Eq.refl _) fun _ =>
    .bind (fun _ _ _ => .trans) (.get Eq.refl) fun s => ?_
  refine .bind (fun _ _ _ => .trans) (.lift Eq.refl _) fun available => .ite (.throw Eq.refl _) ?_
  exact .ite (.throw Eq.refl _) (.bind (fun _ _ _ => .trans) (.raiseIf Eq.refl _) fun _ =>
    .lift Eq.refl _)

lemma prepare_eq_ok_iff {profile : AnalysisProfile} {content : Bytes} {artifact : InputArtifact} :
    prepare env call profile content s = .ok artifact s ↔
      Prepares env call profile content s artifact := by
  unfold prepare
  cases hstatuses : call.fault .statuses with
  | some exc =>
      rw [attempted_bind_of_some rfl]
      refine iff_of_false (fun h => by cases h) fun h => ?_
      cases hstatuses.symm.trans h.statuses
  | none =>
      rw [attempted_bind_eq rfl, get_bind_apply]
      cases hmap : profile.analyzers.mapM (analyzerAvailable env call s.host) with
      | error exc =>
          refine iff_of_false (fun h => by cases h) fun h => ?_
          obtain ⟨values, hvalues⟩ := Fallible.exists_mapM_eq_ok fun analyzer hmem =>
            ⟨true, h.available analyzer hmem⟩
          rw [hmap] at hvalues
          cases hvalues
      | ok available =>
          have hiff := mem_unavailable hmap
          have hlift : (lift (Except.mapError SubmissionError.escaped (.ok available)) :
              EStateM SubmissionError Store _) = pure available := rfl
          rw [hlift, pure_bind_apply]
          by_cases hnone : ((profile.analyzers.zip available).filter (!·.2)).map Prod.fst = []
          · rw [if_neg (not_not.2 hnone)]
            by_cases hroom : s.queue.length ≥ env.queueCapacity
            · rw [if_pos hroom]
              exact iff_of_false (fun h => by cases h) fun h => absurd h.room (Nat.not_lt.2 hroom)
            · rw [if_neg hroom]
              cases hchmod : call.fault .chmod with
              | some exc =>
                  rw [attempted_bind_of_some rfl]
                  refine iff_of_false (fun h => by cases h) fun h => ?_
                  cases hchmod.symm.trans h.chmod
              | none =>
                  rw [attempted_bind_eq rfl]
                  cases hartifact : artifactOf env call content with
                  | error exc =>
                      refine iff_of_false (fun h => by cases h) fun h => ?_
                      cases hartifact.symm.trans h.artifact
                  | ok value =>
                      refine ⟨fun h => ?_, fun h => ?_⟩
                      · obtain ⟨rfl, -⟩ := EStateM.Result.ok.inj h
                        exact ⟨hstatuses, hiff.1 hnone, Nat.lt_of_not_le hroom, hchmod, hartifact⟩
                      · obtain rfl := Except.ok.inj (hartifact.symm.trans h.artifact)
                        rfl
          · rw [if_pos hnone]
            exact iff_of_false (fun h => by cases h) fun h => hnone (hiff.2 h.available)

/-! ## Storing the job -/

lemma attempted_bind_eq_ok {α : Type} {fault : Option Exc} {a : α}
    {f : Unit → EStateM SubmissionError Store α} :
    (attempted fault >>= f) s = .ok a t ↔ fault = none ∧ f () s = .ok a t := by
  cases fault with
  | none => exact (and_iff_right rfl).symm
  | some exc => exact iff_of_false (fun h => by cases h) fun h => by cases h.1

lemma saved_saved (host : Host) (job job' : ScanJob) (h : job'.jobId = job.jobId) :
    (host.saved job).saved job' = host.saved job' := by
  simp [Host.saved, h]

/-- The host once it has handed out a job id. -/
def issued (host : Host) : Host := { host with nextJobId := host.nextJobId + 1 }

section CreateQueued

variable {artifact : InputArtifact} {label : String} {requested : List String} {host : Host}

lemma createQueued_of_fault {exc : Exc}
    (h : env.scan.fault host.nextJobId .saveCreated = some exc) :
    ScanService.createQueued env.scan artifact label requested host = .error exc (issued host) := by
  simp [ScanService.createQueued, ScanService.freshJobId, bind_apply, h, issued]

/-- A job that is stored stays stored, whether or not it walks to QUEUED. -/
lemma createQueued_of_created (artifact : InputArtifact) (label : String)
    (requested : List String) (h : env.scan.fault host.nextJobId .saveCreated = none) :
    ∃ job : ScanJob, job.jobId = host.nextJobId ∧ job.inputArtifact = artifact ∧
      job.source = label ∧
      ((env.scan.fault host.nextJobId .saveStaged = none ∧
          env.scan.fault host.nextJobId .saveQueued = none ∧ job.status = .queued ∧
          ScanService.createQueued env.scan artifact label requested host =
            .ok job ((issued host).saved job)) ∨
        (¬(env.scan.fault host.nextJobId .saveStaged = none ∧
            env.scan.fault host.nextJobId .saveQueued = none) ∧
          ∃ exc, ScanService.createQueued env.scan artifact label requested host =
            .error exc ((issued host).saved job))) := by
  set job := ScanJob.new host.nextJobId label artifact requested
    (requested.filter fun name => name ∈ env.scan.adapters ∨ name ∈ env.scan.genericAnalyzers)
    with hjob
  have hcreate : ScanService.createQueued env.scan artifact label requested host =
      ScanService.withJob job (do
        JobService.transition (env.scan.fault host.nextJobId .saveStaged) .staged
        JobService.transition (env.scan.fault host.nextJobId .saveQueued) .queued)
        ((issued host).saved job) := by
    simp [ScanService.createQueued, ScanService.freshJobId, bind_apply, h, issued, hjob]
  have hstaged := @JobService.transition_of_mem (env.scan.fault host.nextJobId .saveStaged) .staged
    ⟨job, (issued host).saved job⟩ (by simp [hjob, ScanJob.new, transitions])
  rw [hcreate, ScanService.withJob, bind_apply, hstaged]
  cases hsaveStaged : env.scan.fault host.nextJobId .saveStaged with
  | some exc =>
      exact ⟨job, rfl, rfl, rfl, .inr ⟨fun hnone => (by cases hnone.1), exc, rfl⟩⟩
  | none =>
      have hqueued := @JobService.transition_of_mem (env.scan.fault host.nextJobId .saveQueued)
        .queued ⟨{ job with status := .staged },
          ((issued host).saved job).saved { job with status := .staged }⟩
        (by simp [transitions])
      simp only [hqueued]
      cases hsaveQueued : env.scan.fault host.nextJobId .saveQueued with
      | some exc =>
          refine ⟨{ job with status := .staged }, rfl, rfl, rfl,
            .inr ⟨fun hnone => (by cases hnone.2), exc, ?_⟩⟩
          rw [← saved_saved (issued host) job { job with status := .staged } rfl]
      | none =>
          refine ⟨{ job with status := .queued }, rfl, rfl, rfl, .inl ⟨trivial, rfl, rfl, ?_⟩⟩
          rw [← saved_saved (issued host) { job with status := .staged }
              { job with status := .queued } rfl,
            ← saved_saved (issued host) job { job with status := .staged } rfl]

end CreateQueued

variable (env call name) in
/-- Placing a job leaves the host as it is. -/
lemma placeJob_host (content : Bytes) (identity : Identity) (job : ScanJob) :
    Moves (fun s t : Store => t.host = s.host) (placeJob env call name content identity job) := by
  have hrefl : ∀ s : Store, s.host = s.host := fun _ => rfl
  have htrans : ∀ s t u : Store, t.host = s.host → u.host = t.host → u.host = s.host :=
    fun _ _ _ h h' => h'.trans h
  have hmkdir : Moves (fun s t : Store => t.host = s.host) (makeDirectory call job.jobId) :=
    .bind htrans (.raiseIf hrefl _) fun _ => .bind htrans (.get hrefl) fun s =>
      .ite (.throw hrefl _) (.modify fun _ => rfl)
  have hrename : Moves (fun s t : Store => t.host = s.host) (moveUpload call name job.jobId) := by
    refine .bind htrans (.raiseIf hrefl _) fun _ => .bind htrans (.get hrefl) fun s => ?_
    cases s.incoming name with
    | none => exact .throw hrefl _
    | some content => exact .modify fun _ => rfl
  have hsave : Moves (fun s t : Store => t.host = s.host)
      (saveRabJob call (submittedJob env call content identity job.jobId)) :=
    .bind htrans (.raiseIf hrefl _) fun _ => .bind htrans (.get hrefl) fun s =>
      .ite (.throw hrefl _) (.modify fun _ => rfl)
  have hput : Moves (fun s t : Store => t.host = s.host) (putNowait env call job) :=
    .bind htrans (.raiseIf hrefl _) fun _ => .bind htrans (.get hrefl) fun s =>
      .ite (.throw hrefl _) (.modify fun _ => rfl)
  exact .bind htrans hmkdir fun _ => .bind htrans hrename fun _ => .bind htrans hsave fun _ =>
    .bind htrans hput fun _ => .pure hrefl _

/-- What the store is once the job is stored. -/
def Store.withJob (s : Store) (job : ScanJob) (row : SubmittedJob) (name : ℕ)
    (content : Option Bytes) : Store where
  host := (issued s.host).saved job
  rabJobs := s.rabJobs ++ [row]
  queue := s.queue ++ [some job]
  incoming := Function.update s.incoming name none
  directories := Function.update s.directories job.jobId (some content)
  nextIncoming := s.nextIncoming

/-- The place where a job is stored is free. -/
structure Vacant (call : Submission) (s : Store) (identity : Identity) (id : JobId) : Prop where
  directory : s.directories id = none
  row : ∀ row ∈ s.rabJobs, row.jobId ≠ id ∧
    ¬(row.clientId = call.client.clientId ∧ row.idempotencyKey = identity.idempotencyKey)

/-- Nothing fails in the parts of `storeJob` behind the first save. -/
structure StoreWorks (env : SubmitEnv) (call : Submission) (s : Store) : Prop where
  staged : env.scan.fault s.host.nextJobId .saveStaged = none
  queued : env.scan.fault s.host.nextJobId .saveQueued = none
  mkdir : call.fault .mkdir = none
  rename : call.fault .rename = none
  saveRabJob : call.fault .saveRabJob = none
  put : call.fault .put = none

lemma makeDirectory_eq_ok {id : JobId} :
    makeDirectory call id s = .ok () t ↔ call.fault .mkdir = none ∧ s.directories id = none ∧
      t = { s with directories := Function.update s.directories id (some none) } := by
  rw [makeDirectory, attempted_bind_eq_ok, get_bind_apply]
  refine and_congr_right fun _ => ?_
  cases hdirectory : s.directories id with
  | none => exact ⟨fun h => ⟨rfl, (EStateM.Result.ok.inj h).2.symm⟩, fun h => h.2 ▸ rfl⟩
  | some object => exact iff_of_false (fun h => by cases h) fun h => by cases h.1

lemma moveUpload_eq_ok {id : JobId} :
    moveUpload call name id s = .ok () t ↔ call.fault .rename = none ∧
      ∃ content, s.incoming name = some content ∧
        t = { s.setIncoming name none with
          directories := Function.update s.directories id (some (some content)) } := by
  rw [moveUpload, attempted_bind_eq_ok, get_bind_apply]
  refine and_congr_right fun _ => ?_
  cases hfile : s.incoming name with
  | none => exact iff_of_false (fun h => by cases h) fun ⟨content, h, _⟩ => by cases h
  | some content =>
      refine ⟨fun h => ⟨content, rfl, (EStateM.Result.ok.inj h).2.symm⟩, ?_⟩
      rintro ⟨other, hother, rfl⟩
      obtain rfl := Option.some.inj hother
      rfl

lemma saveRabJob_eq_ok {row : SubmittedJob} :
    saveRabJob call row s = .ok () t ↔ call.fault .saveRabJob = none ∧
      (∀ other ∈ s.rabJobs, other.jobId ≠ row.jobId ∧
        ¬(other.clientId = row.clientId ∧ other.idempotencyKey = row.idempotencyKey)) ∧
      t = { s with rabJobs := s.rabJobs ++ [row] } := by
  rw [saveRabJob, attempted_bind_eq_ok, get_bind_apply]
  refine and_congr_right fun _ => ?_
  by_cases hrow : ∃ other ∈ s.rabJobs, other.jobId = row.jobId ∨
      other.clientId = row.clientId ∧ other.idempotencyKey = row.idempotencyKey
  · rw [if_pos hrow]
    obtain ⟨other, hmem, hother⟩ := hrow
    exact iff_of_false (fun h => by cases h) fun h =>
      hother.elim (h.1 other hmem).1 (h.1 other hmem).2
  · rw [if_neg hrow]
    push Not at hrow
    refine ⟨fun h => ⟨fun other hmem => ⟨(hrow other hmem).1, fun hboth =>
      (hrow other hmem).2 hboth.1 hboth.2⟩, (EStateM.Result.ok.inj h).2.symm⟩, fun h => h.2 ▸ rfl⟩

lemma putNowait_eq_ok {job : ScanJob} :
    putNowait env call job s = .ok () t ↔ call.fault .put = none ∧
      s.queue.length < env.queueCapacity ∧ t = { s with queue := s.queue ++ [some job] } := by
  rw [putNowait, attempted_bind_eq_ok, get_bind_apply]
  refine and_congr_right fun _ => ?_
  by_cases hfull : s.queue.length ≥ env.queueCapacity
  · rw [if_pos hfull]
    exact iff_of_false (fun h => by cases h) fun h => Nat.not_lt.2 hfull h.1
  · rw [if_neg hfull]
    exact ⟨fun h => ⟨Nat.lt_of_not_le hfull, (EStateM.Result.ok.inj h).2.symm⟩, fun h => h.2 ▸ rfl⟩

lemma placeJob_of_ok {content received : Bytes} {identity : Identity} {job : ScanJob} {id : JobId}
    (hfile : s.incoming name = some received)
    (h : placeJob env call name content identity job s = .ok id t) :
    (call.fault .mkdir = none ∧ call.fault .rename = none ∧ call.fault .saveRabJob = none ∧
        call.fault .put = none) ∧ id = job.jobId ∧
      t = { s with
        rabJobs := s.rabJobs ++ [submittedJob env call content identity job.jobId]
        queue := s.queue ++ [some job]
        incoming := Function.update s.incoming name none
        directories := Function.update s.directories job.jobId (some (some received)) } := by
  obtain ⟨⟨⟩, s₁, hmade, h⟩ := bind_eq_ok.1 h
  obtain ⟨⟨⟩, s₂, hmoved, h⟩ := bind_eq_ok.1 h
  obtain ⟨⟨⟩, s₃, hsaved, h⟩ := bind_eq_ok.1 h
  obtain ⟨⟨⟩, s₄, hqueued, h⟩ := bind_eq_ok.1 h
  obtain ⟨hmkdir, -, rfl⟩ := makeDirectory_eq_ok.1 hmade
  obtain ⟨hrename, content', hcontent, rfl⟩ := moveUpload_eq_ok.1 hmoved
  obtain ⟨hsave, -, rfl⟩ := saveRabJob_eq_ok.1 hsaved
  obtain ⟨hput, -, rfl⟩ := putNowait_eq_ok.1 hqueued
  obtain ⟨rfl, rfl⟩ := EStateM.Result.ok.inj h
  obtain rfl := Option.some.inj (hfile.symm.trans hcontent)
  exact ⟨⟨hmkdir, hrename, hsave, hput⟩, rfl, by simp [Store.setIncoming]⟩

/-- A job is placed exactly if nothing fails. -/
lemma placeJob_eq_ok {content received : Bytes} {identity : Identity} {job : ScanJob} {id : JobId}
    (hfile : s.incoming name = some received) (hroom : s.queue.length < env.queueCapacity)
    (hvacant : Vacant call s identity job.jobId) :
    placeJob env call name content identity job s = .ok id t ↔
      (call.fault .mkdir = none ∧ call.fault .rename = none ∧ call.fault .saveRabJob = none ∧
        call.fault .put = none) ∧ id = job.jobId ∧
      t = { s with
        rabJobs := s.rabJobs ++ [submittedJob env call content identity job.jobId]
        queue := s.queue ++ [some job]
        incoming := Function.update s.incoming name none
        directories := Function.update s.directories job.jobId (some (some received)) } := by
  refine ⟨placeJob_of_ok hfile, ?_⟩
  rintro ⟨⟨hmkdir, hrename, hsave, hput⟩, rfl, rfl⟩
  refine bind_eq_ok.2 ⟨(), _, makeDirectory_eq_ok.2 ⟨hmkdir, hvacant.directory, rfl⟩, ?_⟩
  refine bind_eq_ok.2 ⟨(), _, moveUpload_eq_ok.2 ⟨hrename, received, hfile, rfl⟩, ?_⟩
  refine bind_eq_ok.2 ⟨(), _, saveRabJob_eq_ok.2 ⟨hsave, hvacant.row, rfl⟩, ?_⟩
  refine bind_eq_ok.2 ⟨(), _, putNowait_eq_ok.2 ⟨hput, hroom, rfl⟩, ?_⟩
  simp [Store.setIncoming]

lemma storeJob_of_fault {profile : AnalysisProfile} {content : Bytes} {identity : Identity}
    {artifact : InputArtifact} {exc : Exc}
    (h : env.scan.fault s.host.nextJobId .saveCreated = some exc) :
    storeJob env call name profile content identity artifact s =
      .error (.escaped exc) { s with host := issued s.host } := by
  rw [storeJob, bind_of_error]
  rw [onJobs, createQueued_of_fault h]

/-- A job that is stored is stored in full, or the exception leaves its row behind. -/
lemma storeJob_cases (profile : AnalysisProfile) (content : Bytes) {identity : Identity}
    (artifact : InputArtifact) {received : Bytes}
    (hcreated : env.scan.fault s.host.nextJobId .saveCreated = none)
    (hfile : s.incoming name = some received) (hroom : s.queue.length < env.queueCapacity)
    (hvacant : Vacant call s identity s.host.nextJobId) :
    (StoreWorks env call s ∧ ∃ job : ScanJob, job.jobId = s.host.nextJobId ∧
        job.status = .queued ∧ job.inputArtifact = artifact ∧ job.source = artifact.source ∧
        storeJob env call name profile content identity artifact s = .ok s.host.nextJobId
          (s.withJob job (submittedJob env call content identity s.host.nextJobId) name
            (some received))) ∨
      ¬StoreWorks env call s ∧ ∃ error t,
        storeJob env call name profile content identity artifact s = .error error t ∧
          (t.host.jobs s.host.nextJobId).isSome := by
  obtain ⟨job, hid, hartifact, hsource, ⟨hstaged, hqueued, hstatus, hcreate⟩ |
    ⟨hnot, exc, hcreate⟩⟩ := createQueued_of_created artifact artifact.source profile.analyzers
      hcreated
  · set u : Store := { s with host := (issued s.host).saved job } with hu
    have hjobs : onJobs (ScanService.createQueued env.scan artifact artifact.source
        profile.analyzers) s = .ok job u := by
      rw [onJobs, hcreate]
    have hrun : storeJob env call name profile content identity artifact s =
        placeJob env call name content identity job u := bind_of_ok hjobs _
    have hplace : ∀ {id t}, placeJob env call name content identity job u = .ok id t ↔ _ :=
      placeJob_eq_ok (s := u) hfile hroom (hid ▸ ⟨hvacant.directory, hvacant.row⟩)
    rw [← hid]
    cases hcase : placeJob env call name content identity job u with
    | ok id t =>
        obtain ⟨⟨hmkdir, hrename, hsave, hput⟩, rfl, rfl⟩ :=
          hplace.1 hcase
        refine .inl ⟨⟨hstaged, hqueued, hmkdir, hrename, hsave, hput⟩, job, rfl, hstatus,
          hartifact, hsource, ?_⟩
        rw [hrun, hcase]
        rfl
    | error error t =>
        refine .inr ⟨fun hworks => ?_, error, t, hrun.trans hcase, ?_⟩
        · have hok := hplace.2
            ⟨⟨hworks.mkdir, hworks.rename, hworks.saveRabJob, hworks.put⟩, rfl, rfl⟩
          cases hcase.symm.trans hok
        · have hhost := placeJob_host env call name content identity job u
          rw [final_of_error hcase] at hhost
          rw [hhost, hu, Host.saved_jobs_self]
          rfl
  · refine .inr ⟨fun hworks => hnot ⟨hworks.staged, hworks.queued⟩, .escaped exc,
      { s with host := (issued s.host).saved job }, ?_, ?_⟩
    · rw [storeJob, bind_of_error]
      rw [onJobs, hcreate]
    · rw [← hid, Host.saved_jobs_self]
      rfl

/-! ## How a call ends -/

section Ends

variable {profile : AnalysisProfile} {content : Bytes} {identity : Identity}

lemma Arrives.unique {profile' : AnalysisProfile} {content' : Bytes} {identity' : Identity}
    (h : Arrives env call profile content identity)
    (h' : Arrives env call profile' content' identity') :
    profile = profile' ∧ content = content' ∧ identity = identity' := by
  obtain rfl := Except.ok.inj (h.checked.symm.trans h'.checked)
  obtain rfl := Except.ok.inj (h.received.symm.trans h'.received)
  exact ⟨rfl, rfl, Except.ok.inj (h.identified.symm.trans h'.identified)⟩

lemma stores_iff (h : Arrives env call profile content identity) :
    Stores env call s ↔ call.fault .lookup = none ∧
      findKey s.rabJobs call.client.clientId identity.idempotencyKey = none ∧
      (∃ artifact, Prepares env call profile content s artifact) ∧
      env.scan.fault s.host.nextJobId .saveCreated = none := by
  constructor
  · rintro ⟨profile', content', identity', artifact, h', hlookup, hkey, hprepares, hcreated⟩
    obtain ⟨rfl, rfl, rfl⟩ := h.unique h'
    exact ⟨hlookup, hkey, ⟨artifact, hprepares⟩, hcreated⟩
  · rintro ⟨hlookup, hkey, ⟨artifact, hprepares⟩, hcreated⟩
    exact ⟨profile, content, identity, artifact, h, hlookup, hkey, hprepares, hcreated⟩

lemma repeats_iff (h : Arrives env call profile content identity) :
    Repeats env call s ↔ call.fault .lookup = none ∧
      ∃ existing, findKey s.rabJobs call.client.clientId identity.idempotencyKey = some existing ∧
        existing.fingerprint = identity.fingerprint := by
  constructor
  · rintro ⟨profile', content', identity', existing, h', hlookup, hkey, hprint⟩
    obtain ⟨rfl, rfl, rfl⟩ := h.unique h'
    exact ⟨hlookup, existing, hkey, hprint⟩
  · rintro ⟨hlookup, existing, hkey, hprint⟩
    exact ⟨profile, content, identity, existing, h, hlookup, hkey, hprint⟩

lemma not_stores_of_repeats (h : Repeats env call s) : ¬Stores env call s := by
  obtain ⟨profile, content, identity, existing, harrives, -, hkey, -⟩ := h
  rw [stores_iff harrives]
  exact fun hstores => by cases hkey.symm.trans hstores.2.1

lemma final_lift {α : Type} (r : Except SubmissionError α) (t : Store) :
    final (lift r : EStateM SubmissionError Store α) t = t := by
  cases r <;> rfl

variable (env) in
lemma receive_cases (hopened : call.fault .openIncoming = none) (hname : s.incoming name = none) :
    ∃ u, s.SameBut name u ∧ (u.incoming name).isSome ∧
      receive env call name s = lift (received env call) u := by
  obtain ⟨u, hfile, hreceive⟩ := receive_eq env hopened hname
  refine ⟨u, ?_, hfile, hreceive⟩
  have hsame := receive_sameBut env call name s
  rwa [final, hreceive, ← final, final_lift] at hsame

/-- An object that arrives comes to the lock with its file. -/
lemma submitUpload_of_arrives (h : Arrives env call profile content identity)
    (hname : s.incoming name = none) : ∃ u, s.SameBut name u ∧ (u.incoming name).isSome ∧
      submitUpload env call profile name s =
        (locked env call name profile content identity >>= answer call) u := by
  obtain ⟨u, hsame, hfile, hreceive⟩ := receive_cases env h.opened hname
  rw [h.received] at hreceive
  refine ⟨u, hsame, hfile, ?_⟩
  rw [submitUpload, bind_of_ok hreceive, h.identified]
  rfl

/-- An object that does not arrive leaves its file behind, if that was opened. -/
lemma submitUpload_of_not_arrives (hchecked : checkRequest env call = .ok profile)
    (h : ¬∃ content identity, Arrives env call profile content identity)
    (hname : s.incoming name = none) : ∃ error u, s.SameBut name u ∧
      ((u.incoming name).isSome ↔ call.fault .openIncoming = none) ∧
      submitUpload env call profile name s = .error error u := by
  cases hopened : call.fault .openIncoming with
  | some exc =>
      refine ⟨.escaped exc, s, .refl s, iff_of_false (by simp [hname]) (by simp), ?_⟩
      rw [submitUpload, bind_of_error]
      rw [receive, attempted_bind_of_some hopened]
  | none =>
      obtain ⟨u, hsame, hfile, hreceive⟩ := receive_cases env hopened hname
      cases hreceived : received env call with
      | error error =>
          rw [hreceived] at hreceive
          refine ⟨error, u, hsame, iff_of_true hfile rfl, ?_⟩
          rw [submitUpload, bind_of_error hreceive]
      | ok content =>
          rw [hreceived] at hreceive
          cases hidentify : identify env call content with
          | error error =>
              refine ⟨error, u, hsame, iff_of_true hfile rfl, ?_⟩
              rw [submitUpload, bind_of_ok hreceive, hidentify]
              rfl
          | ok identity =>
              exact absurd ⟨content, identity, hchecked, hopened, hreceived, hidentify⟩ h

lemma answerExisting_of_fault {exc : Exc} (h : call.fault .lookup = some exc) :
    answerExisting call name identity s = .error (.escaped exc) s := attempted_bind_of_some h s

lemma answerExisting_of_new (hlookup : call.fault .lookup = none)
    (hkey : findKey s.rabJobs call.client.clientId identity.idempotencyKey = none) :
    answerExisting call name identity s = .ok none s := by
  rw [answerExisting, attempted_bind_eq hlookup, get_bind_apply, hkey]
  rfl

lemma answerExisting_of_conflict {existing : SubmittedJob} (hlookup : call.fault .lookup = none)
    (hkey : findKey s.rabJobs call.client.clientId identity.idempotencyKey = some existing)
    (hprint : existing.fingerprint ≠ identity.fingerprint) :
    answerExisting call name identity s = .error (.protocol idempotencyConflict) s := by
  rw [answerExisting, attempted_bind_eq hlookup, get_bind_apply, hkey]
  exact congrFun (if_pos hprint) s

variable (name) in
lemma answerExisting_of_repeat {existing : SubmittedJob} (hlookup : call.fault .lookup = none)
    (hkey : findKey s.rabJobs call.client.clientId identity.idempotencyKey = some existing)
    (hprint : existing.fingerprint = identity.fingerprint) :
    answerExisting call name identity s =
      (removeIncoming (call.fault .removeDuplicate) name >>= fun _ =>
        accepted call existing.jobId true >>= fun answer => pure (some answer)) s := by
  rw [answerExisting, attempted_bind_eq hlookup, get_bind_apply, hkey]
  exact congrFun (if_neg (not_not.2 hprint)) s

variable (name) in
/-- A call that is turned away under the lock, before it stores a job. -/
lemma locked_of_rejected (harrives : Arrives env call profile content identity)
    (hstores : ¬Stores env call s) (hrepeats : ¬Repeats env call s) :
    ∃ error t, locked env call name profile content identity s = .error error t ∧
      (t = s ∨ t = { s with host := issued s.host }) := by
  rw [stores_iff harrives] at hstores
  rw [repeats_iff harrives] at hrepeats
  unfold locked
  cases hlookup : call.fault .lookup with
  | some exc => exact ⟨_, s, bind_of_error (answerExisting_of_fault hlookup) _, .inl rfl⟩
  | none =>
      cases hkey : findKey s.rabJobs call.client.clientId identity.idempotencyKey with
      | some existing =>
          have hprint : existing.fingerprint ≠ identity.fingerprint := fun heq =>
            hrepeats ⟨hlookup, existing, hkey, heq⟩
          exact ⟨_, s, bind_of_error (answerExisting_of_conflict hlookup hkey hprint) _, .inl rfl⟩
      | none =>
          rw [bind_of_ok (answerExisting_of_new hlookup hkey)]
          have hstate := prepare_state env call profile content s
          cases hprepare : prepare env call profile content s with
          | error error t =>
              rw [final_of_error hprepare] at hstate
              exact ⟨error, t, bind_of_error hprepare _, .inl hstate.symm⟩
          | ok artifact t =>
              obtain rfl : s = t := (final_of_ok hprepare) ▸ hstate
              have hprepares := prepare_eq_ok_iff.1 hprepare
              cases hcreated : env.scan.fault s.host.nextJobId .saveCreated with
              | none => exact absurd ⟨hlookup, hkey, ⟨artifact, hprepares⟩, hcreated⟩ hstores
              | some exc =>
                  refine ⟨.escaped exc, _, ?_, .inr rfl⟩
                  exact (bind_of_ok hprepare _).trans (bind_of_error (storeJob_of_fault hcreated) _)

variable (call) in
lemma accepted_state (id : JobId) (duplicate : Bool) :
    Moves Eq (accepted call id duplicate) := by
  refine .bind (fun _ _ _ => .trans) (.raiseIf Eq.refl _) fun _ =>
    .bind (fun _ _ _ => .trans) (.get Eq.refl) fun s => ?_
  refine .bind (fun _ _ _ => .trans) (.raiseIf Eq.refl _) fun _ =>
    .bind (fun _ _ _ => .trans) (.get Eq.refl) fun t => ?_
  cases s.host.jobs id with
  | none => exact .throw Eq.refl _
  | some job =>
      cases t.rabJobs.find? (·.jobId = id) with
      | none => exact .throw Eq.refl _
      | some record => exact .pure Eq.refl _

variable (call) in
lemma accepted_of_row {id : JobId} {job : ScanJob} {record : SubmittedJob} (duplicate : Bool)
    (hjob : s.host.jobs id = some job)
    (hrow : s.rabJobs.find? (fun row => decide (row.jobId = id)) = some record) :
    (call.fault .readJob = none ∧ call.fault .readRecord = none ∧
        accepted call id duplicate s = .ok ⟨job.jobId, job.inputArtifact.hashes.sha256,
          record.profile, job.status, duplicate⟩ s) ∨
      ¬(call.fault .readJob = none ∧ call.fault .readRecord = none) ∧
        ∃ error, accepted call id duplicate s = .error error s := by
  unfold accepted
  cases hreadJob : call.fault .readJob with
  | some exc => exact .inr ⟨fun h => (by cases h.1), .escaped exc, rfl⟩
  | none =>
      rw [attempted_bind_eq rfl, get_bind_apply]
      cases hreadRecord : call.fault .readRecord with
      | some exc => exact .inr ⟨fun h => (by cases h.2), .escaped exc, rfl⟩
      | none =>
          refine .inl ⟨rfl, rfl, ?_⟩
          rw [attempted_bind_eq rfl, get_bind_apply, hjob, hrow]
          rfl

lemma findKey_eq_none_iff {rows : List SubmittedJob} {clientId : PyStr} {key : Digest 64} :
    findKey rows clientId key = none ↔
      ∀ row ∈ rows, ¬(row.clientId = clientId ∧ row.idempotencyKey = key) := by
  simp only [findKey, List.find?_eq_none, decide_eq_true_eq]

variable (name) in
/-- A call that stores a job and goes on without a failure returns, and any other one leaves the
row of the job behind. -/
lemma locked_of_stores (harrives : Arrives env call profile content identity)
    (hstores : Stores env call s) (hfile : (s.incoming name).isSome)
    (hdirectory : s.directories s.host.nextJobId = none)
    (hrows : ∀ row ∈ s.rabJobs, row.jobId ≠ s.host.nextJobId) :
    (Completes env call s ∧ ∃ result t,
        (locked env call name profile content identity >>= answer call) s = .ok result t) ∨
      ¬Completes env call s ∧ ∃ error t,
        (locked env call name profile content identity >>= answer call) s = .error error t ∧
          (t.host.jobs s.host.nextJobId).isSome := by
  obtain ⟨hlookup, hkey, ⟨artifact, hprepares⟩, hcreated⟩ := (stores_iff harrives).1 hstores
  obtain ⟨received, hreceived⟩ := Option.isSome_iff_exists.1 hfile
  have hvacant : Vacant call s identity s.host.nextJobId :=
    ⟨hdirectory, fun row hrow => ⟨hrows row hrow, findKey_eq_none_iff.1 hkey row hrow⟩⟩
  have hlocked : locked env call name profile content identity s =
      (storeJob env call name profile content identity artifact >>= fun id =>
        pure (Locked.stored id)) s := by
    rw [locked, bind_of_ok (answerExisting_of_new hlookup hkey)]
    exact bind_of_ok (prepare_eq_ok_iff.2 hprepares) _
  obtain ⟨hworks, job, hid, -, -, -, hstore⟩ | ⟨hnot, error, t, hstore, hrow⟩ :=
    storeJob_cases profile content artifact hcreated hreceived hprepares.room hvacant
  · rw [bind_of_ok hstore] at hlocked
    rw [bind_of_ok hlocked]
    set u := s.withJob job (submittedJob env call content identity s.host.nextJobId) name
      (some received) with hu
    have hjob : u.host.jobs s.host.nextJobId = some job := by
      rw [hu, ← hid]
      exact Host.saved_jobs_self _ _
    have hrow : u.rabJobs.find? (fun row => decide (row.jobId = s.host.nextJobId)) =
        some (submittedJob env call content identity s.host.nextJobId) := by
      have hnone : s.rabJobs.find? (fun row => decide (row.jobId = s.host.nextJobId)) = none := by
        simpa only [List.find?_eq_none, decide_eq_true_eq] using hrows
      rw [hu, Store.withJob, List.find?_append, hnone]
      simp [submittedJob]
    obtain ⟨hreadJob, hreadRecord, haccepted⟩ | ⟨hnot, error, haccepted⟩ :=
      accepted_of_row call false hjob hrow
    · refine .inl ⟨⟨hworks.staged, hworks.queued, hworks.mkdir, hworks.rename, hworks.saveRabJob,
        hworks.put, hreadJob, hreadRecord⟩, _, u, bind_of_ok haccepted _⟩
    · refine .inr ⟨fun h => hnot ⟨h.readJob, h.readRecord⟩, error, u,
        bind_of_error haccepted _, ?_⟩
      rw [hjob]
      rfl
  · rw [bind_of_error hstore] at hlocked
    refine .inr ⟨fun h => hnot ⟨h.staged, h.queued, h.mkdir, h.rename, h.saveRabJob, h.put⟩,
      error, t, bind_of_error hlocked _, hrow⟩

variable (name) in
/-- A call that repeats an earlier one removes its file, or is rejected with it. -/
lemma locked_of_repeats (harrives : Arrives env call profile content identity)
    (hrepeats : Repeats env call s) :
    (call.fault .removeDuplicate = none ∧
        final (locked env call name profile content identity >>= answer call) s =
          s.setIncoming name none) ∨
      call.fault .removeDuplicate ≠ none ∧ ∃ error,
        (locked env call name profile content identity >>= answer call) s = .error error s := by
  obtain ⟨hlookup, existing, hkey, hprint⟩ := (repeats_iff harrives).1 hrepeats
  have hexisting := answerExisting_of_repeat name hlookup hkey hprint
  cases hremove : call.fault .removeDuplicate with
  | some exc =>
      rw [hremove] at hexisting
      exact .inr ⟨Option.some_ne_none exc, _, bind_of_error (bind_of_error hexisting _) _⟩
  | none =>
      refine .inl ⟨rfl, ?_⟩
      have hrun : answerExisting call name identity s =
          (accepted call existing.jobId true >>= fun answer => pure (some answer))
            (s.setIncoming name none) := by
        rw [hexisting, hremove]
        rfl
      have hstate := accepted_state call existing.jobId true (s.setIncoming name none)
      cases haccepted : accepted call existing.jobId true (s.setIncoming name none) with
      | error error t =>
          rw [final_of_error haccepted] at hstate
          rw [bind_of_error haccepted] at hrun
          have hlocked : locked env call name profile content identity s = .error error t :=
            bind_of_error hrun _
          exact (final_of_error (bind_of_error hlocked _)).trans hstate.symm
      | ok result t =>
          rw [final_of_ok haccepted] at hstate
          rw [bind_of_ok haccepted] at hrun
          have hlocked : locked env call name profile content identity s =
              .ok (.duplicate result) t := bind_of_ok hrun _
          have hanswer : (locked env call name profile content identity >>= answer call) s =
              .ok result t := bind_of_ok hlocked _
          exact (final_of_ok hanswer).trans hstate.symm

/-! ## When a rejected call leaves no trace -/

lemma guarded_of_ok {α : Type} {x : EStateM SubmissionError Store α} {a : α}
    (h : x s = .ok a t) : guarded call name x s = .ok a t := by
  rw [guarded, tryCatch_apply, h]

variable (call name) in
lemma guarded_of_error {α : Type} {x : EStateM SubmissionError Store α} {error : SubmissionError}
    (h : x s = .error error t) : ∃ error', guarded call name x s = .error error'
      (if call.fault .removeRejected = none then t.setIncoming name none else t) := by
  rw [guarded, tryCatch_apply, h]
  cases hremove : call.fault .removeRejected with
  | none => exact ⟨error, rfl⟩
  | some exc => exact ⟨.escaped exc, rfl⟩

/-- A call that is rejected before it has stored anything leaves no trace exactly if its file is
removed, or was not there. -/
lemma sameStores_guarded {u : Store} (hsame : s.SameBut name u) (hname : s.incoming name = none)
    (ht : t = u ∨ t = { u with host := issued u.host }) :
    s.SameStores (if call.fault .removeRejected = none then t.setIncoming name none else t) ↔
      ((u.incoming name).isSome → call.fault .removeRejected = none) := by
  have hiff : ∀ content, s.SameStores (t.setIncoming name content) ↔ content = none := by
    intro content
    have hset := hsame.trans (.setIncoming u name content)
    have hsameStores := hset.sameStores_iff
    rw [hname, Store.setIncoming_self] at hsameStores
    rw [← hsameStores]
    obtain rfl | rfl := ht
    · rfl
    · exact ⟨fun h => ⟨h.jobs, h.rabJobs, h.queue, h.incoming, h.directories⟩,
        fun h => ⟨h.jobs, h.rabJobs, h.queue, h.incoming, h.directories⟩⟩
  have hself : t.setIncoming name (u.incoming name) = t := by
    obtain rfl | rfl := ht <;> simp [Store.setIncoming]
  by_cases hremove : call.fault .removeRejected = none
  · rw [if_pos hremove, hiff]
    exact iff_of_true rfl fun _ => hremove
  · rw [if_neg hremove, ← hself, hiff, ← Option.not_isSome_iff_eq_none]
    exact (imp_iff_not hremove).symm

/-- How the `try` statement ends: with a job that is stored, with an answer to a repeated call, or
with a call that is turned away. -/
inductive UploadEnd (env : SubmitEnv) (call : Submission) (name : ℕ) (s : Store) :
    EStateM.Result SubmissionError Store AnalysisJobAccepted → Prop
  | completed {result : AnalysisJobAccepted} {t : Store} (stores : Stores env call s)
      (completes : Completes env call s) : UploadEnd env call name s (.ok result t)
  | broken {error : SubmissionError} {t : Store} (stores : Stores env call s)
      (completes : ¬Completes env call s) (row : (t.host.jobs s.host.nextJobId).isSome) :
      UploadEnd env call name s (.error error t)
  | repeated {result : EStateM.Result SubmissionError Store AnalysisJobAccepted} {u : Store}
      (repeats : Repeats env call s) (removed : call.fault .removeDuplicate = none)
      (same : s.SameBut name u) (file : u.incoming name = none)
      (state : ∀ error t, result = .error error t → t = u) : UploadEnd env call name s result
  | stuck {error : SubmissionError} {u : Store} (repeats : Repeats env call s)
      (removed : call.fault .removeDuplicate ≠ none) (same : s.SameBut name u)
      (file : (u.incoming name).isSome) : UploadEnd env call name s (.error error u)
  | rejected {error : SubmissionError} {u t : Store} (stores : ¬Stores env call s)
      (repeats : ¬Repeats env call s) (same : s.SameBut name u)
      (file : (u.incoming name).isSome ↔ call.fault .openIncoming = none)
      (state : t = u ∨ t = { u with host := issued u.host }) :
      UploadEnd env call name s (.error error t)

lemma stores_congr {u : Store} (h : s.SameBut name u) :
    Stores env call u ↔ Stores env call s := by
  have hprepares : ∀ profile content artifact, Prepares env call profile content u artifact ↔
      Prepares env call profile content s artifact := by
    intro profile content artifact
    constructor
    · intro hu
      exact ⟨hu.statuses, h.host ▸ hu.available, h.queue ▸ hu.room, hu.chmod, hu.artifact⟩
    · intro hs
      exact ⟨hs.statuses, h.host ▸ hs.available, h.queue ▸ hs.room, hs.chmod, hs.artifact⟩
  simp only [Stores, h.rabJobs, h.host, hprepares]

lemma repeats_congr {u : Store} (h : s.SameBut name u) :
    Repeats env call u ↔ Repeats env call s := by
  simp only [Repeats, h.rabJobs]

lemma completes_congr {u : Store} (h : s.SameBut name u) :
    Completes env call u ↔ Completes env call s := by
  constructor
  · intro hu
    exact ⟨h.host ▸ hu.staged, h.host ▸ hu.queued, hu.mkdir, hu.rename, hu.saveRabJob, hu.put,
      hu.readJob, hu.readRecord⟩
  · intro hs
    exact ⟨h.host ▸ hs.staged, h.host ▸ hs.queued, hs.mkdir, hs.rename, hs.saveRabJob, hs.put,
      hs.readJob, hs.readRecord⟩

lemma submitUpload_end (hchecked : checkRequest env call = .ok profile)
    (hname : s.incoming name = none) (hdirectory : s.directories s.host.nextJobId = none)
    (hrows : ∀ row ∈ s.rabJobs, row.jobId ≠ s.host.nextJobId) :
    UploadEnd env call name s (submitUpload env call profile name s) := by
  by_cases harrives : ∃ content identity, Arrives env call profile content identity
  · obtain ⟨content, identity, harrives⟩ := harrives
    obtain ⟨u, hsame, hfile, hrun⟩ := submitUpload_of_arrives harrives hname
    rw [hrun]
    by_cases hstores : Stores env call s
    · have hend := locked_of_stores name harrives ((stores_congr hsame).2 hstores) hfile
        (by rw [hsame.directories, hsame.host, hdirectory])
        (by rwa [hsame.rabJobs, hsame.host])
      rw [completes_congr hsame, hsame.host] at hend
      obtain ⟨hcompletes, result, t, hok⟩ | ⟨hnot, error, t, herror, hrow⟩ := hend
      · rw [hok]
        exact .completed hstores hcompletes
      · rw [herror]
        exact .broken hstores hnot hrow
    by_cases hrepeats : Repeats env call s
    · obtain ⟨hremoved, hfinal⟩ | ⟨hremoved, error, herror⟩ :=
        locked_of_repeats name harrives ((repeats_congr hsame).2 hrepeats)
      · refine .repeated hrepeats hremoved (hsame.trans (.setIncoming u name none))
          (by simp [Store.setIncoming]) fun error t herror => ?_
        rw [← hfinal, final_of_error herror]
      · rw [herror]
        exact .stuck hrepeats hremoved hsame hfile
    · obtain ⟨error, t, herror, ht⟩ := locked_of_rejected name harrives
        (mt (stores_congr hsame).1 hstores) (mt (repeats_congr hsame).1 hrepeats)
      rw [bind_of_error herror]
      exact .rejected hstores hrepeats hsame (iff_of_true hfile harrives.opened) ht
  · obtain ⟨error, u, hsame, hfile, hrun⟩ := submitUpload_of_not_arrives hchecked harrives hname
    have hnot : ∀ {profile' content identity}, ¬Arrives env call profile' content identity := by
      intro profile' content identity h
      obtain rfl := Except.ok.inj (hchecked.symm.trans h.checked)
      exact harrives ⟨content, identity, h⟩
    rw [hrun]
    refine .rejected ?_ ?_ hsame hfile (.inl rfl)
    · rintro ⟨_, _, _, _, h, -⟩
      exact hnot h
    · rintro ⟨_, _, _, _, h, -⟩
      exact hnot h

/-- The `try` statement and what cleans up after it. -/
lemma guarded_traceless_iff (hchecked : checkRequest env call = .ok profile)
    (hname : s.incoming name = none) (hdirectory : s.directories s.host.nextJobId = none)
    (hrows : ∀ row ∈ s.rabJobs, row.jobId ≠ s.host.nextJobId)
    (hjob : s.host.jobs s.host.nextJobId = none) :
    (∀ error t, guarded call name (submitUpload env call profile name) s = .error error t →
        s.SameStores t) ↔
      (Stores env call s → Completes env call s) ∧
        (Strands env call s → call.fault .removeRejected = none) := by
  have hend : UploadEnd env call name s (submitUpload env call profile name s) :=
    submitUpload_end hchecked hname hdirectory hrows
  cases hupload : submitUpload env call profile name s with
  | ok result t =>
      rw [hupload] at hend
      rw [guarded_of_ok hupload]
      refine iff_of_true (fun error t h => by cases h) ?_
      cases hend with
      | completed stores completes =>
          exact ⟨fun _ => completes, fun hstrands => absurd stores hstrands.2.2.1⟩
      | repeated repeats removed =>
          exact ⟨fun stores => absurd stores (not_stores_of_repeats repeats),
            fun hstrands => absurd removed (hstrands.2.2.2 repeats)⟩
  | error error t =>
      rw [hupload] at hend
      obtain ⟨error', hguarded⟩ := guarded_of_error call name hupload
      have hiff : (∀ error t, guarded call name (submitUpload env call profile name) s =
          .error error t → s.SameStores t) ↔ s.SameStores
            (if call.fault .removeRejected = none then t.setIncoming name none else t) := by
        rw [hguarded]
        refine ⟨fun h => h _ _ rfl, fun h other u hu => ?_⟩
        obtain ⟨-, rfl⟩ := EStateM.Result.error.inj hu
        exact h
      rw [hiff]
      cases hend with
      | broken stores completes row =>
          refine iff_of_false (fun hsame => ?_) fun h => completes (h.1 stores)
          have hjobs : (if call.fault .removeRejected = none then t.setIncoming name none
              else t).host.jobs = t.host.jobs := by
            split <;> rfl
          rw [← hjobs, hsame.jobs, hjob] at row
          cases row
      | repeated repeats removed same file state =>
          refine iff_of_true ?_ ⟨fun stores => absurd stores (not_stores_of_repeats repeats),
            fun hstrands => absurd removed (hstrands.2.2.2 repeats)⟩
          refine (sameStores_guarded same hname (.inl (state _ _ rfl))).2 fun hthere => ?_
          rw [file] at hthere
          cases hthere
      | stuck repeats removed same file =>
          refine (sameStores_guarded same hname (.inl rfl)).trans ?_
          have hstores : ¬Stores env call s := not_stores_of_repeats repeats
          have hopened : call.fault .openIncoming = none := by
            obtain ⟨_, _, _, _, harrives, -⟩ := repeats
            exact harrives.opened
          exact ⟨fun h => ⟨fun stores => absurd stores hstores, fun _ => h file⟩,
            fun h _ => h.2 ⟨⟨profile, hchecked⟩, hopened, hstores, fun _ => removed⟩⟩
      | rejected stores repeats same file state =>
          refine (sameStores_guarded same hname state).trans ?_
          rw [file]
          exact ⟨fun h => ⟨fun hstores => absurd hstores stores, fun hstrands => h hstrands.2.1⟩,
            fun h hopened => h.2 ⟨⟨profile, hchecked⟩, hopened, stores,
              fun hrepeats => absurd hrepeats repeats⟩⟩

end Ends

end Receiving

/-- A call of `submit_stream` that raises leaves the tables, the queue and the upload root as they
were exactly if nothing fails once it has stored a job, and if the file it was received into is
removed where it is rejected before that. -/
theorem rejected_traceless_iff (env : SubmitEnv) (call : Submission) (s : Store)
    (hfresh : s.Fresh) :
    (∀ error t, submitStream env call s = .error error t → s.SameStores t) ↔
      (Stores env call s → Completes env call s) ∧
        (Strands env call s → call.fault .removeRejected = none) := by
  cases hchecked : checkRequest env call with
  | error error =>
      have hrun : submitStream env call s = .error (.protocol error) s := by
        rw [submitStream, hchecked]
        rfl
      refine iff_of_true (fun error' t h => ?_) ⟨?_, ?_⟩
      · obtain ⟨-, rfl⟩ := EStateM.Result.error.inj (hrun.symm.trans h)
        exact ⟨rfl, rfl, rfl, rfl, rfl⟩
      · rintro ⟨_, _, _, _, harrives, -⟩
        cases hchecked.symm.trans harrives.checked
      · rintro ⟨⟨_, hok⟩, -⟩
        cases hchecked.symm.trans hok
  | ok profile =>
      set name := s.nextIncoming with hname
      set u : Store := { s with nextIncoming := name + 1 } with hu
      have hsame : s.SameBut name u := ⟨rfl, rfl, rfl, fun _ _ => rfl, rfl, Nat.le_succ _⟩
      have hrun : submitStream env call s =
          guarded call name (submitUpload env call profile name) u := by
        rw [submitStream, hchecked]
        rfl
      have hiff := guarded_traceless_iff (s := u) hchecked
        (hfresh.incoming name le_rfl) (hfresh.directories _ le_rfl)
        (fun row hrow => Nat.ne_of_lt (hfresh.rabJobs row hrow)) (hfresh.jobs _ le_rfl)
      have hstores : ∀ t, u.SameStores t ↔ s.SameStores t := fun t =>
        ⟨fun h => ⟨h.jobs, h.rabJobs, h.queue, h.incoming, h.directories⟩,
          fun h => ⟨h.jobs, h.rabJobs, h.queue, h.incoming, h.directories⟩⟩
      rw [hrun]
      simp only [hstores, Strands, stores_congr hsame, repeats_congr hsame,
        completes_congr hsame] at hiff
      exact hiff

/-! ## Two calls -/

/-- A service with one profile, which asks for no analyzer. -/
def plainService : SubmitEnv where
  scan := (plainEnv none).scan
  blake3 := fun _ => Hashes.empty.blake3
  sha1 := fun _ => Hashes.empty.sha1
  md5 := fun _ => Hashes.empty.md5
  lower := id
  printable := fun _ => true
  profiles := fun id => if id = PyStr.ofString "basic@1" then some ⟨[], true⟩ else none
  maximumUploadBytes := 16
  queueCapacity := 2
  recursive := false
  correlation := false

/-- A client submits the empty file, and only `fault` may fail. -/
def plainCall (fault : SubmitSite → Option Exc) : Submission where
  client := ⟨PyStr.ofString "client", []⟩
  clientRequestId := PyStr.ofString "request"
  idempotencyKey := PyStr.ofString "key"
  profileId := PyStr.ofString "basic@1"
  expectedSha256 := PyStr.ofString Hashes.empty.sha256.val
  filename := none
  mediaType := none
  reads := []
  probe := fun _ => .error (.runtime "not configured")
  fault := fault

/-- Nothing has been submitted. -/
def emptyStore : Store where
  host := ⟨fun _ => none, fun _ => none, fun _ => none, fun _ => false, 0, []⟩
  rabJobs := []
  queue := []
  incoming := fun _ => none
  directories := fun _ => none
  nextIncoming := 0

/-- The fault of one call. -/
def onlyFault (site : SubmitSite) (exc : Exc) : SubmitSite → Option Exc :=
  fun other => if other = site then some exc else none

lemma emptyStore_fresh : emptyStore.Fresh :=
  ⟨fun _ _ => rfl, fun _ _ => rfl, fun _ h => absurd h List.not_mem_nil, fun _ _ => rfl⟩

/-- A full disk is found when the received object is flushed. -/
theorem full_disk_traceless :
    emptyStore.SameStores (final (submitStream plainService (plainCall
      (onlyFault .sync ⟨.osError, "OSError", "No space left on device"⟩))) emptyStore) := by
  have hraises : ¬Returns (submitStream plainService (plainCall
      (onlyFault .sync ⟨.osError, "OSError", "No space left on device"⟩))) emptyStore := by
    decide
  obtain ⟨error, t, hrun⟩ := not_returns_iff.1 hraises
  rw [final_of_error hrun]
  exact (rejected_traceless_iff _ _ emptyStore emptyStore_fresh).2
    ⟨fun _ => ⟨rfl, rfl, rfl, rfl, rfl, rfl, rfl, rfl⟩, fun _ => rfl⟩ error t hrun

-- A job whose directory cannot be made stays in the table, QUEUED but in no queue.
example :
    let t := final (submitStream plainService
      (plainCall (onlyFault .mkdir ⟨.osError, "OSError", "No space left on device"⟩))) emptyStore
    (t.host.jobs 0).map (·.status) = some .queued ∧ t.queue = [] := by
  decide

end RABService

end AVBox
