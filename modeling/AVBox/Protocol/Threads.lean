import AVBox.Lib.Threads
import AVBox.Protocol.Artifacts
import AVBox.Protocol.CallParts

/-!
# The threads of the submission service

Calls of `submit_stream`, workers and `shutdown` run at the same time on one store.  Any number of
threads take the parts of their programs in any order (`advance`).  The run of a job is one part:
what it writes is the job's own, or belongs to jobs that it creates itself.

A thread owns the file of its upload, the job that it has created or taken from the queue, and the
lock while it holds it.  `Store.Frame` is what it leaves to the others, and `Store.Frame.sound`
says that they do not see what it does.
-/

namespace AVBox

open Program Threads

namespace RABService

/-! ## The service -/

/-- The service with its workers, which are numbered as the threads are. -/
structure ServiceEnv where
  submit : SubmitEnv
  late : ScanService.LateOutcomes submit.scan.sha256
  /-- The calls of the database and of the file system that a worker makes for a job. -/
  getCompleted : JobId → Option Exc
  getCurrent : JobId → Option Exc
  saveCurrent : JobId → Option Exc
  removeUpload : JobId → Option Exc
  /-- Those that `shutdown` makes. -/
  saveInterrupted : JobId → Option Exc
  removeInterrupted : JobId → Option Exc
  /-- Whether `rmdir` fails for the directory of a job, which is passed over. -/
  keepsDirectory : JobId → Bool
  workers : List ℕ

/-- The object of a job, as far as it is there. -/
def Store.upload (s : Store) (id : JobId) : Option Bytes := (s.directories id).join

/-- What a worker goes by. -/
def ServiceEnv.worker (env : ServiceEnv) (s : Store) : WorkerEnv where
  scan := env.submit.scan
  late := env.late
  upload := fun id => (s.upload id).getD []
  getCompleted := env.getCompleted
  getCurrent := env.getCurrent
  saveCurrent := env.saveCurrent
  removeUpload := env.removeUpload

/-- `_remove_upload`. -/
def removeUpload (env : ServiceEnv) (fault : Option Exc) (id : JobId) : EStateM Exc Store Unit := do
  raiseIf fault
  modify fun s =>
    { s with
      directories := Function.update s.directories id
        (if env.keepsDirectory id then (s.directories id).map fun _ => none else none) }

/-- The body of the loop of a worker, for a job. -/
def serveJob (env : ServiceEnv) (job : ScanJob) : EStateM Exc Store Unit := do
  let s ← get
  tryFinally
    (zoom (fun s : Store => (⟨job, s.host⟩ : ScanState))
      (fun (state : ScanState) s => { s with host := state.host }) (runItem (env.worker s)))
    (removeUpload env (env.removeUpload job.jobId) job.jobId)

/-- What `shutdown` does with a job that is still in the queue. -/
def interrupt (env : ServiceEnv) (job : ScanJob) : EStateM Exc Store Unit := do
  let job ← lift ((job.addError
    "ANALYSIS_FAILED: interrupted by graceful service shutdown").transition .failed)
  zoom Store.host (fun host s => { s with host := host })
    (JobService.save (env.saveInterrupted job.jobId) job)
  removeUpload env (env.removeInterrupted job.jobId) job.jobId

/-! ## The threads -/

/-- Where a worker is. -/
inductive WorkerPoint
  | waiting
  | holding (job : ScanJob)
  | stopped
  /-- An exception has left the loop. -/
  | dead (id : JobId)

/-- Where `shutdown` is. -/
inductive ClosingPoint
  /-- It has not been called. -/
  | serving
  | draining
  | interrupting (job : ScanJob)
  | stopping (left : ℕ)
  | joining (left : List ℕ)
  | returned
  | dead (id : JobId)

/-- Where a thread is. -/
inductive Point
  | call (submission : Submission) (point : CallPoint)
  | worker (point : WorkerPoint)
  | closing (point : ClosingPoint)

/-- What the threads share. -/
structure Shared where
  store : Store
  locked : Bool
  /-- The threads that have ended. -/
  ended : ℕ → Bool

/-- The next part of a call, once it has the lock if it takes it. -/
def advanceCall (env : SubmitEnv) (call : Submission) (x : Shared) (point : CallPoint) :
    Option (Shared × CallPoint) :=
  if point.closed || point.locks && x.locked then none
  else
    let locked (point' : CallPoint) : Bool :=
      if point.locks || point.locked then point'.locked else x.locked
    match point.next env call x.store with
    | .ok point' t => some ({ x with store := t, locked := locked point' }, point')
    | .error error t =>
        some ({ x with store := t, locked := locked (point.failed error) }, point.failed error)

/-- The next part of `_worker`, in a thread.  All that it does with a job that it holds is one part,
so that the stages of a job do not interleave with the parts of other threads. -/
def advanceWorker (env : ServiceEnv) (i : ℕ) (x : Shared) : WorkerPoint →
    Option (Shared × WorkerPoint)
  | .waiting => match x.store.queue with
      | [] => none
      | none :: items => some ({ x with
          store := { x.store with queue := items }
          ended := Function.update x.ended i true }, .stopped)
      | some job :: items =>
          some ({ x with store := { x.store with queue := items } }, .holding job)
  | .holding job => match serveJob env job x.store with
      | .ok () t => some ({ x with store := t }, .waiting)
      | .error _ t => some ({ x with
          store := t
          ended := Function.update x.ended i true }, .dead job.jobId)
  | .stopped => none
  | .dead _ => none

/-- The next part of `shutdown`. -/
def advanceClosing (env : ServiceEnv) (x : Shared) : ClosingPoint → Option (Shared × ClosingPoint)
  | .serving => some (x, .draining)
  | .draining => match x.store.queue with
      | [] => some (x, .stopping env.workers.length)
      | none :: items => some ({ x with store := { x.store with queue := items } }, .draining)
      | some job :: items =>
          some ({ x with store := { x.store with queue := items } }, .interrupting job)
  | .interrupting job => match interrupt env job x.store with
      | .ok () t => some ({ x with store := t }, .draining)
      | .error _ t => some ({ x with store := t }, .dead job.jobId)
  | .stopping 0 => some (x, .joining env.workers)
  | .stopping (left + 1) =>
      if x.store.queue.length < env.submit.queueCapacity then
        some ({ x with store := { x.store with queue := x.store.queue ++ [none] } },
          .stopping left)
      else none
  | .joining [] => some (x, .returned)
  | .joining (worker :: left) => if x.ended worker then some (x, .joining left) else none
  | .returned => none
  | .dead _ => none

/-- The next part of a thread, if nothing keeps it waiting. -/
def advance (env : ServiceEnv) (i : ℕ) (x : Shared) : Point → Option (Shared × Point)
  | .call submission point =>
      (advanceCall env.submit submission x point).map (Prod.map id (.call submission))
  | .worker point => (advanceWorker env i x point).map (Prod.map id .worker)
  | .closing point => (advanceClosing env x point).map (Prod.map id .closing)

/-- The steps of the service. -/
abbrev ServiceStep (env : ServiceEnv) : State ℕ Shared Point → ℕ → State ℕ Shared Point → Prop :=
  Step fun i x point x' point' => advance env i x point = some (x', point')

/-- The runs of the service. -/
abbrev ServiceRun (env : ServiceEnv) (start : State ℕ Shared Point)
    (trace : List (State ℕ Shared Point × ℕ)) (state : State ℕ Shared Point) : Prop :=
  Transitions.Run (ServiceStep env) start trace state

/-! ## What a thread owns -/

inductive Resource
  | lock
  /-- A file `incoming-<uuid>`. -/
  | file (name : ℕ)
  /-- A job that is in no other thread and not in the queue. -/
  | job (id : JobId)
  /-- That the thread has created the job. -/
  | origin (id : JobId)

def CallPoint.owns : CallPoint → Set Resource
  | .started => ∅
  | .received upload => {.file upload.name}
  | .looked upload => {.lock, .file upload.name}
  | .prepared upload _ => {.lock, .file upload.name}
  | .created upload job => {.lock, .file upload.name, .job job.jobId, .origin job.jobId}
  | .stored upload id => {.file upload.name, .origin id}
  | .answered answer => {r | answer.duplicate = false ∧ r = .origin answer.jobId}
  | .rejected _ => ∅
  | .broken id _ => {.job id, .origin id}
  | .unanswered id _ => {.origin id}

def WorkerPoint.owns : WorkerPoint → Set Resource
  | .waiting => ∅
  | .holding job => {.job job.jobId}
  | .stopped => ∅
  | .dead id => {.job id}

def ClosingPoint.owns : ClosingPoint → Set Resource
  | .interrupting job => {.job job.jobId}
  | .dead id => {.job id}
  | _ => ∅

def Point.owns : Point → Set Resource
  | .call _ point => point.owns
  | .worker point => point.owns
  | .closing point => point.owns

/-- Something that a thread can own as things are. -/
def Resource.Taken (x : Shared) : Resource → Prop
  | .lock => x.locked = true
  | .file name => name < x.store.nextIncoming
  | .job id => id < x.store.host.nextJobId ∧ id ∉ itemIds x.store.queue
  | .origin id => id < x.store.host.nextJobId

/-- What a thread that owns `own` leaves to the others. -/
structure Store.Frame (own : Set Resource) (s t : Store) : Prop where
  nextJobId : s.host.nextJobId ≤ t.host.nextJobId
  jobs : ∀ id < s.host.nextJobId, .job id ∉ own → t.host.jobs id = s.host.jobs id
  directories : ∀ id < s.host.nextJobId, .job id ∉ own → t.directories id = s.directories id
  nextIncoming : s.nextIncoming ≤ t.nextIncoming
  incoming : ∀ name < s.nextIncoming, .file name ∉ own → t.incoming name = s.incoming name
  rows : s.rabJobs <+: t.rabJobs
  locked : .lock ∉ own → t.rabJobs = s.rabJobs
  queue : ∀ id ∈ itemIds t.queue, id ∈ itemIds s.queue ∨ .job id ∈ own

/-- A job that a thread has taken from the queue. -/
structure Taken (env : SubmitEnv) (job : ScanJob) (s : Store) : Prop where
  queued : Queued s.host job
  upload : ∃ content, s.directories job.jobId = some (some content) ∧
    job.inputArtifact.hashes.sha256 = env.scan.sha256 content
  place : job.jobId ∉ itemIds s.queue

def WorkerPoint.Sound (env : SubmitEnv) (s : Store) : WorkerPoint → Prop
  | .holding job => Taken env job s
  | .dead id => id < s.host.nextJobId ∧ id ∉ itemIds s.queue
  | _ => True

def ClosingPoint.Sound (env : SubmitEnv) (s : Store) : ClosingPoint → Prop
  | .interrupting job => Taken env job s
  | .dead id => id < s.host.nextJobId ∧ id ∉ itemIds s.queue
  | _ => True

/-- What holds of a thread, by where it is. -/
def Point.Sound (env : SubmitEnv) (s : Store) : Point → Prop
  | .call submission point => point.Sound env submission s
  | .worker point => point.Sound env s
  | .closing point => point.Sound env s

/-- What holds of a thread and of the lock. -/
structure ThreadSound (env : SubmitEnv) (x : Shared) (point : Point) : Prop where
  sound : point.Sound env x.store
  lock : Resource.lock ∈ point.owns → x.locked = true

/-- The invariant of the service. -/
abbrev ServiceSound (env : ServiceEnv) : State ℕ Shared Point → Prop :=
  Holds (fun x : Shared => x.store.Sound env.submit) (fun _ => ThreadSound env.submit) Point.owns

section Frames

variable {env : SubmitEnv} {call : Submission} {s t : Store} {own : Set Resource} {x x' : Shared}

/-- What a thread owns is taken. -/
lemma ThreadSound.taken {point : Point} (h : ThreadSound env x point)
    (hstore : x.store.Sound env) : ∀ r ∈ point.owns, r.Taken x := by
  obtain ⟨hsound, hlock⟩ := h
  intro r hr
  cases point with
  | call submission point =>
      cases point with
      | started => exact hr.elim
      | received upload =>
          obtain rfl := Set.mem_singleton_iff.1 hr
          exact Upload.Held.issued hsound
      | looked upload =>
          obtain rfl | hr := hr
          · exact hlock (.inl rfl)
          · obtain rfl := Set.mem_singleton_iff.1 hr
            exact Upload.Held.issued hsound.1
      | prepared upload artifact =>
          obtain rfl | hr := hr
          · exact hlock (.inl rfl)
          · obtain rfl := Set.mem_singleton_iff.1 hr
            exact Upload.Held.issued hsound.1
      | created upload job =>
          obtain rfl | rfl | rfl | hr := hr
          · exact hlock (.inl rfl)
          · exact Upload.Held.issued hsound.1
          · exact ⟨hsound.2.2.queued.issued, hsound.2.2.place⟩
          · obtain rfl := Set.mem_singleton_iff.1 hr
            exact hsound.2.2.queued.issued
      | stored upload id =>
          obtain rfl | hr := hr
          · exact hsound.2.1
          · obtain rfl := Set.mem_singleton_iff.1 hr
            exact hstore.issued _ hsound.2.2
      | answered result =>
          obtain ⟨-, rfl⟩ := hr
          obtain ⟨profile, content, identity, row, hanswers⟩ := hsound
          change result.jobId < _
          rw [hanswers.jobId]
          exact hstore.issued row hanswers.mem
      | rejected error => exact hr.elim
      | broken id error =>
          obtain rfl | hr := hr
          · exact hsound
          · obtain rfl := Set.mem_singleton_iff.1 hr
            exact hsound.1
      | unanswered id error =>
          obtain rfl := Set.mem_singleton_iff.1 hr
          obtain ⟨row, hrow, rfl⟩ := hsound
          exact hstore.issued row hrow
  | worker point =>
      cases point with
      | waiting => exact hr.elim
      | holding job =>
          obtain rfl := Set.mem_singleton_iff.1 hr
          exact ⟨Taken.queued hsound |>.issued, Taken.place hsound⟩
      | stopped => exact hr.elim
      | dead id =>
          obtain rfl := Set.mem_singleton_iff.1 hr
          exact hsound
  | closing point =>
      cases point with
      | interrupting job =>
          obtain rfl := Set.mem_singleton_iff.1 hr
          exact ⟨Taken.queued hsound |>.issued, Taken.place hsound⟩
      | dead id =>
          obtain rfl := Set.mem_singleton_iff.1 hr
          exact hsound
      | _ => exact hr.elim

namespace Store.Frame

lemma held (h : Store.Frame own s t) {upload : Upload} (hheld : upload.Held env call s)
    (hfile : .file upload.name ∉ own) : upload.Held env call t where
  arrives := hheld.arrives
  issued := Nat.lt_of_lt_of_le hheld.issued h.nextIncoming
  file := (h.incoming _ hheld.issued hfile).trans hheld.file

lemma newKey (h : Store.Frame own s t) {identity : Identity} (hkey : NewKey call identity s)
    (hlock : .lock ∉ own) : NewKey call identity t := by
  rwa [NewKey, h.locked hlock]

lemma stillQueued (h : Store.Frame own s t) {job : ScanJob} (hqueued : Queued s.host job)
    (hjob : .job job.jobId ∉ own) : Queued t.host job where
  status := hqueued.status
  row := (h.jobs _ hqueued.issued hjob).trans hqueued.row
  issued := Nat.lt_of_lt_of_le hqueued.issued h.nextJobId

lemma place (h : Store.Frame own s t) {id : JobId} (hplace : id ∉ itemIds s.queue)
    (hjob : .job id ∉ own) : id ∉ itemIds t.queue := fun hmem =>
  (h.queue id hmem).elim hplace hjob

lemma unplaced (h : Store.Frame own s t) {upload : Upload} {job : ScanJob}
    (hunplaced : Unplaced upload job s) (hlock : .lock ∉ own) (hjob : .job job.jobId ∉ own) :
    Unplaced upload job t where
  queued := h.stillQueued hunplaced.queued hjob
  directory := (h.directories _ hunplaced.queued.issued hjob).trans hunplaced.directory
  row := by
    rw [h.locked hlock]
    exact hunplaced.row
  place := h.place hunplaced.place hjob
  digest := hunplaced.digest

lemma taken (h : Store.Frame own s t) {job : ScanJob} (htaken : Taken env job s)
    (hjob : .job job.jobId ∉ own) : Taken env job t where
  queued := h.stillQueued htaken.queued hjob
  upload := by
    rw [h.directories _ htaken.queued.issued hjob]
    exact htaken.upload
  place := h.place htaken.place hjob

lemma answers (h : Store.Frame own s t) {answer : AnalysisJobAccepted}
    {profile : AnalysisProfile} {content : Bytes} {identity : Identity} {row : SubmittedJob}
    (hanswers : Answers env call s answer profile content identity row) :
    Answers env call t answer profile content identity row :=
  { hanswers with mem := h.rows.subset hanswers.mem }

/-- A thread does not see what the others do with what is theirs. -/
lemma sound (h : Store.Frame own s t) {point : Point} (hpoint : point.Sound env s)
    (hapart : Disjoint own point.owns) : point.Sound env t := by
  have hout : ∀ r ∈ point.owns, r ∉ own := fun r hr hown => Set.disjoint_left.1 hapart hown hr
  have hdead : ∀ {id}, id < s.host.nextJobId ∧ id ∉ itemIds s.queue → .job id ∉ own →
      id < t.host.nextJobId ∧ id ∉ itemIds t.queue := fun hid hjob =>
    ⟨Nat.lt_of_lt_of_le hid.1 h.nextJobId, h.place hid.2 hjob⟩
  cases point with
  | call submission point =>
      cases point with
      | started => trivial
      | received upload => exact h.held hpoint (hout _ rfl)
      | looked upload =>
          exact ⟨h.held hpoint.1 (hout _ (.inr rfl)), h.newKey hpoint.2 (hout _ (.inl rfl))⟩
      | prepared upload artifact =>
          exact ⟨h.held hpoint.1 (hout _ (.inr rfl)), h.newKey hpoint.2.1 (hout _ (.inl rfl)),
            hpoint.2.2⟩
      | created upload job =>
          exact ⟨h.held hpoint.1 (hout _ (.inr (.inl rfl))),
            h.newKey hpoint.2.1 (hout _ (.inl rfl)),
            h.unplaced hpoint.2.2 (hout _ (.inl rfl)) (hout _ (.inr (.inr (.inl rfl))))⟩
      | stored upload id =>
          exact ⟨hpoint.1, Nat.lt_of_lt_of_le hpoint.2.1 h.nextIncoming,
            h.rows.subset hpoint.2.2⟩
      | answered result =>
          obtain ⟨profile, content, identity, row, hanswers⟩ := hpoint
          exact ⟨profile, content, identity, row, h.answers hanswers⟩
      | rejected error => trivial
      | broken id error => exact hdead hpoint (hout _ (.inl rfl))
      | unanswered id error =>
          obtain ⟨row, hrow, hid⟩ := hpoint
          exact ⟨row, h.rows.subset hrow, hid⟩
  | worker point =>
      cases point with
      | holding job => exact h.taken hpoint (hout _ rfl)
      | dead id => exact hdead hpoint (hout _ rfl)
      | waiting => trivial
      | stopped => trivial
  | closing point =>
      cases point with
      | interrupting job => exact h.taken hpoint (hout _ rfl)
      | dead id => exact hdead hpoint (hout _ rfl)
      | _ => trivial

end Store.Frame

/-! ## The parts of a call -/

lemma Store.Frame.refl (own : Set Resource) (s : Store) : Store.Frame own s s :=
  ⟨le_rfl, fun _ _ _ => rfl, fun _ _ _ => rfl, le_rfl, fun _ _ _ => rfl, List.prefix_rfl,
    fun _ => rfl, fun _ => .inl⟩

lemma Store.Frame.trans {u : Store} (h : Store.Frame own s t) (h' : Store.Frame own t u) :
    Store.Frame own s u where
  nextJobId := h.nextJobId.trans h'.nextJobId
  jobs id hid hown := (h'.jobs id (hid.trans_le h.nextJobId) hown).trans (h.jobs id hid hown)
  directories id hid hown :=
    (h'.directories id (hid.trans_le h.nextJobId) hown).trans (h.directories id hid hown)
  nextIncoming := h.nextIncoming.trans h'.nextIncoming
  incoming name hname hown :=
    (h'.incoming name (hname.trans_le h.nextIncoming) hown).trans (h.incoming name hname hown)
  rows := h.rows.trans h'.rows
  locked hown := (h'.locked hown).trans (h.locked hown)
  queue id hid := (h'.queue id hid).elim (h.queue id) .inr

lemma Store.SameBut.frame {name : ℕ} (h : s.SameBut name t)
    (hname : name < s.nextIncoming → .file name ∈ own) : Store.Frame own s t where
  nextJobId := by rw [h.host]
  jobs _ _ _ := by rw [h.host]
  directories _ _ _ := by rw [h.directories]
  nextIncoming := h.nextIncoming
  incoming other hother hown := h.incoming other fun heq => hown (heq ▸ hname (heq ▸ hother))
  rows := by rw [h.rabJobs]
  locked _ := h.rabJobs
  queue id hid := .inl (by rwa [h.queue] at hid)

/-- Writing the row of a new job. -/
lemma frame_saved {host : Host} (hhost : host = issued s.host ∨ ∃ job : ScanJob,
    job.jobId = s.host.nextJobId ∧ host = (issued s.host).saved job) :
    Store.Frame own s { s with host := host } := by
  have hrest : s.host.nextJobId ≤ host.nextJobId ∧
      ∀ id < s.host.nextJobId, host.jobs id = s.host.jobs id := by
    obtain rfl | ⟨job, hid, rfl⟩ := hhost
    · exact ⟨Nat.le_succ _, fun _ _ => rfl⟩
    · refine ⟨Nat.le_succ _, fun id hlt => ?_⟩
      exact Host.saved_jobs_of_ne _ _ (hid ▸ Nat.ne_of_lt hlt)
  exact ⟨hrest.1, fun id hid _ => hrest.2 id hid, fun _ _ _ => rfl, le_rfl, fun _ _ _ => rfl,
    List.prefix_rfl, fun _ => rfl, fun _ => .inl⟩

lemma exists_of_mem_itemIds {items : List (Option ScanJob)} {id : JobId}
    (h : id ∈ itemIds items) : ∃ job : ScanJob, some job ∈ items ∧ job.jobId = id := by
  obtain ⟨item, hitem, hid⟩ := List.mem_filterMap.1 h
  obtain ⟨job, rfl, heq⟩ := Option.map_eq_some_iff.1 hid
  exact ⟨job, hitem, heq⟩

lemma itemIds_append (items : List (Option ScanJob)) (job : ScanJob) :
    itemIds (items ++ [some job]) = itemIds items ++ [job.jobId] := by
  simp [itemIds]

/-- Placing a job, in full or in part. -/
lemma frame_placed {upload : Upload} {job : ScanJob} {row : SubmittedJob} (host : t.host = s.host)
    (queue : t.queue = s.queue ∨ t.queue = s.queue ++ [some job])
    (rabJobs : t.rabJobs = s.rabJobs ∨ t.rabJobs = s.rabJobs ++ [row])
    (incoming : ∀ other, other ≠ upload.name → t.incoming other = s.incoming other)
    (directories : ∀ id, id ≠ job.jobId → t.directories id = s.directories id)
    (nextIncoming : t.nextIncoming = s.nextIncoming) :
    Store.Frame (CallPoint.created upload job).owns s t where
  nextJobId := by rw [host]
  jobs _ _ _ := by rw [host]
  directories id _ hown := directories id fun heq => hown (.inr (.inr (.inl (heq ▸ rfl))))
  nextIncoming := nextIncoming.ge
  incoming name _ hown := incoming name fun heq => hown (.inr (.inl (heq ▸ rfl)))
  rows := by
    obtain h | h := rabJobs <;> rw [h]
    exact List.prefix_append _ _
  locked hown := absurd (.inl rfl) hown
  queue id hid := by
    obtain h | h := queue
    · exact .inl (h ▸ hid)
    · rw [h, itemIds_append, List.mem_append, List.mem_singleton] at hid
      exact hid.imp_right fun (heq : id = job.jobId) => .inr (.inr (.inl (heq ▸ rfl)))

lemma Part.frame {point point' : CallPoint} (h : Part env call s t point point')  :
    Store.Frame point.owns s t := by
  cases h with
  | arrives held name same => exact same.frame fun hlt => absurd hlt (name ▸ Nat.lt_irrefl _)
  | turnedAway same fresh => exact same.frame fun hlt => absurd hlt (Nat.lt_irrefl _)
  | repeats answers duplicate same => exact same.frame fun _ => rfl
  | looks key state => exact state ▸ .refl _ _
  | prepares artifact_eq state => exact state ▸ .refl _ _
  | rejects place same =>
      obtain rfl | rfl := place
      · exact same.frame fun _ => rfl
      · exact same.frame fun _ => .inr rfl
  | creates jobId status artifact_eq state =>
      exact state ▸ frame_saved (.inr ⟨_, jobId, rfl⟩)
  | @uncreated upload artifact error u host rest same =>
      have hsaved : Store.Frame (CallPoint.prepared upload artifact).owns s
          { s with host := u.host } := frame_saved host
      rw [← rest] at hsaved
      exact hsaved.trans (same.frame fun _ => .inr rfl)
  | places state =>
      subst state
      exact frame_placed rfl (.inr rfl) (.inr rfl) (fun other hne => Function.update_of_ne hne ..)
        (fun id hne => Function.update_of_ne hne ..) rfl
  | breaks host queue rabJobs incoming directories nextIncoming =>
      exact frame_placed host (.inl queue) rabJobs incoming directories nextIncoming
  | answers answers duplicate jobId same => exact same.frame fun _ => .inl rfl
  | unanswered same => exact same.frame fun _ => .inl rfl

/-- What a thread comes to own was not taken. -/
lemma Part.gains {point point' : CallPoint} (h : Part env call s t point point')
    (hlock : point.locks = true → x.locked = false)
    (hx : x.store = s) : ∀ r ∈ point'.owns, r ∈ point.owns ∨ ¬r.Taken x := by
  subst hx
  intro r hr
  cases h with
  | arrives held name same =>
      obtain rfl := Set.mem_singleton_iff.1 hr
      exact .inr fun htaken => absurd htaken (name ▸ Nat.lt_irrefl _)
  | turnedAway same fresh => exact hr.elim
  | repeats answers duplicate same => cases duplicate.symm.trans hr.1
  | looks key state =>
      obtain rfl | hr := hr
      · exact .inr fun htaken => by cases (hlock rfl).symm.trans htaken
      · exact .inl hr
  | prepares artifact_eq state => exact .inl hr
  | rejects place same => exact hr.elim
  | creates jobId status artifact_eq state =>
      obtain rfl | rfl | rfl | hr := hr
      · exact .inl (.inl rfl)
      · exact .inl (.inr rfl)
      · exact .inr fun htaken => absurd htaken.1 (jobId ▸ Nat.lt_irrefl _)
      · obtain rfl := Set.mem_singleton_iff.1 hr
        exact .inr fun htaken => absurd htaken (jobId ▸ Nat.lt_irrefl _)
  | uncreated host rest same => exact hr.elim
  | places state =>
      obtain rfl | hr := hr
      · exact .inl (.inr (.inl rfl))
      · exact .inl (.inr (.inr (.inr hr)))
  | breaks host queue rabJobs incoming directories nextIncoming => exact .inl (.inr (.inr hr))
  | answers answers duplicate jobId same =>
      obtain ⟨-, rfl⟩ := hr
      exact .inl (.inr (congrArg Resource.origin jobId))
  | unanswered same => exact .inl (.inr hr)

end Frames

end RABService

end AVBox
