import AVBox.Protocol.Fingerprints
import AVBox.Protocol.Threads

/-!
# What the threads of the service keep

`ServiceSound.run` is the invariant of the service: each key of a client has one row at most, each
job in the queue waits with its upload, and no two threads own the same.

`answered_once` says what a client may rely on.  Its calls with one key are answered for one job,
which one of them at most has submitted, and they asked for the same.
-/

namespace AVBox

open Program Threads

namespace RABService

section Invariant

variable {env : SubmitEnv} {call : Submission} {s t : Store} {own : Set Resource} {x x' : Shared}

/-! ## The invariant of the store -/

/-- The rows and the queue stay, and each row keeps its job. -/
lemma Store.Sound.of_frame (hsound : s.Sound env) (h : Store.Frame own s t)
    (hqueue : t.queue <:+ s.queue) (hrows : t.rabJobs = s.rabJobs)
    (hdirectories : ∀ id, t.host.nextJobId ≤ id → t.directories id = none)
    (hincoming : ∀ name, t.nextIncoming ≤ name → t.incoming name = none)
    (hstored : ∀ row ∈ s.rabJobs, .job row.jobId ∈ own → ∃ job, t.host.jobs row.jobId = some job ∧
      job.jobId = row.jobId ∧ job.inputArtifact.hashes.sha256 = row.verifiedSha256)
    (hown : ∀ id ∈ itemIds t.queue, .job id ∉ own) : t.Sound env where
  directories := hdirectories
  incoming := hincoming
  issued row hrow := (hsound.issued row (hrows ▸ hrow)).trans_le h.nextJobId
  apart := hrows ▸ hsound.apart
  stored row hrow := by
    rw [hrows] at hrow
    by_cases hrowOwn : .job row.jobId ∈ own
    · exact hstored row hrow hrowOwn
    · rw [h.jobs _ (hsound.issued row hrow) hrowOwn]
      exact hsound.stored row hrow
  queued job hjob := by
    obtain ⟨hqueued, hupload⟩ := hsound.queued job (hqueue.subset hjob)
    have hnot := hown job.jobId (mem_itemIds hjob)
    rw [h.directories _ hqueued.issued hnot]
    exact ⟨h.stillQueued hqueued hnot, hupload⟩
  distinct := hsound.distinct.sublist (hqueue.sublist.filterMap _)

lemma Store.SameBut.sound {name : ℕ} (h : s.SameBut name t) (hsound : s.Sound env)
    (hname : t = s ∨ name < t.nextIncoming) : t.Sound env := by
  obtain rfl | hname := hname
  · exact hsound
  have hframe : Store.Frame {.file name} s t := h.frame fun _ => rfl
  refine hsound.of_frame hframe (h.queue ▸ List.suffix_rfl)
    h.rabJobs ?_ ?_ (fun row _ hjob => by cases hjob) (fun id _ hjob => by cases hjob)
  · rw [h.host, h.directories]
    exact hsound.directories
  · intro other hother
    rw [h.incoming other fun heq => Nat.not_le.2 hname (heq ▸ hother)]
    exact hsound.incoming other (h.nextIncoming.trans hother)

/-- The host may have handed out a job id, and the row of that job may be there. -/
lemma Store.Sound.saved (hsound : s.Sound env) {host : Host}
    (hhost : host = RABService.issued s.host ∨ ∃ job : ScanJob, job.jobId = s.host.nextJobId ∧
      host = (RABService.issued s.host).saved job) :
    ({ s with host := host } : Store).Sound env := by
  have hnext : s.host.nextJobId ≤ host.nextJobId := by
    obtain rfl | ⟨job, -, rfl⟩ := hhost <;> exact Nat.le_succ _
  have hframe : Store.Frame ∅ s { s with host := host } := frame_saved hhost
  refine hsound.of_frame hframe List.suffix_rfl rfl
    (fun id hid => hsound.directories id (hnext.trans hid)) hsound.incoming
    (fun _ _ hjob => hjob.elim) fun _ _ hjob => hjob.elim

/-- The row of a job that has none. -/
lemma Store.Sound.addRow (hsound : s.Sound env) {row : SubmittedJob} {job : ScanJob}
    (hrow : s.host.jobs row.jobId = some job) (hid : job.jobId = row.jobId)
    (hdigest : job.inputArtifact.hashes.sha256 = row.verifiedSha256)
    (hissued : row.jobId < s.host.nextJobId) (hnew : ∀ other ∈ s.rabJobs, other.Apart row) :
    ({ s with rabJobs := s.rabJobs ++ [row] } : Store).Sound env where
  directories := hsound.directories
  incoming := hsound.incoming
  issued other hother := by
    obtain hother | rfl := (List.mem_append.1 hother).imp_right List.mem_singleton.1
    · exact hsound.issued other hother
    · exact hissued
  apart := List.pairwise_append.2 ⟨hsound.apart, List.pairwise_singleton _ _,
    fun other hother row' hrow' => List.mem_singleton.1 hrow' ▸ hnew other hother⟩
  stored other hother := by
    obtain hother | rfl := (List.mem_append.1 hother).imp_right List.mem_singleton.1
    · exact hsound.stored other hother
    · exact ⟨job, hrow, hid, hdigest⟩
  queued := hsound.queued
  distinct := hsound.distinct

/-- A job is put in the queue. -/
lemma Store.Sound.enqueue (hsound : s.Sound env) {job : ScanJob} (htaken : Taken env job s) :
    ({ s with queue := s.queue ++ [some job] } : Store).Sound env where
  directories := hsound.directories
  incoming := hsound.incoming
  issued := hsound.issued
  apart := hsound.apart
  stored := hsound.stored
  queued other hother := by
    obtain hother | heq := (List.mem_append.1 hother).imp_right List.mem_singleton.1
    · exact hsound.queued other hother
    · obtain rfl := Option.some.inj heq
      exact ⟨htaken.queued, htaken.upload⟩
  distinct := by
    rw [itemIds_append]
    exact hsound.distinct.append (List.nodup_singleton _)
      (List.disjoint_singleton.2 htaken.place)

/-- The digests of an object that has been identified. -/
lemma identify_eq_ok {content : Bytes} {identity : Identity}
    (h : identify env call content = .ok identity) :
    ∃ text key, encodeText (fingerprintText call (env.scan.sha256 content)) = .ok text ∧
      encodeText call.idempotencyKey = .ok key ∧
      identity = ⟨env.scan.sha256 content, env.scan.sha256 text, env.scan.sha256 key⟩ := by
  obtain ⟨declared, -, h⟩ := Fallible.bind_eq_ok.1 h
  cases declared with
  | false => cases h
  | true =>
      obtain ⟨text, htext, h⟩ := Fallible.bind_eq_ok.1 h
      obtain ⟨key, hkey, h⟩ := Fallible.bind_eq_ok.1 h
      obtain rfl := Except.ok.inj h
      refine ⟨text, key, ?_, ?_, rfl⟩
      · cases hencoded : encodeText (fingerprintText call (env.scan.sha256 content)) <;>
          rw [hencoded] at htext <;> cases htext
        rfl
      · cases hencoded : encodeText call.idempotencyKey <;> rw [hencoded] at hkey <;> cases hkey
        rfl

lemma artifactOf_sha256 {content : Bytes} {artifact : InputArtifact}
    (h : artifactOf env call content = .ok artifact) :
    artifact.hashes.sha256 = env.scan.sha256 content := by
  obtain ⟨filename, -, h⟩ := Fallible.bind_eq_ok.1 h
  simp only at h
  split at h
  · cases h
  · obtain ⟨mediaType, -, h⟩ := Fallible.bind_eq_ok.1 h
    obtain ⟨source, -, h⟩ := Fallible.bind_eq_ok.1 h
    rw [← Except.ok.inj h]

/-- The directory, the upload and the row of a job that is being placed. -/
lemma Store.Sound.placed (hsound : s.Sound env) {upload : Upload} {job : ScanJob}
    (hpoint : CallPoint.Sound env call s (.created upload job)) (hhost : t.host = s.host)
    (hqueue : t.queue = s.queue)
    (hrows : t.rabJobs = s.rabJobs ∨ t.rabJobs = s.rabJobs ++
      [submittedJob env call upload.content upload.identity job.jobId])
    (hincoming : ∀ other, other ≠ upload.name → t.incoming other = s.incoming other)
    (hdirectories : ∀ id, id ≠ job.jobId → t.directories id = s.directories id)
    (hnext : t.nextIncoming = s.nextIncoming) : t.Sound env := by
  obtain ⟨hheld, hkey, hunplaced⟩ := hpoint
  set u : Store := { t with rabJobs := s.rabJobs } with hu
  have hframe : Store.Frame (CallPoint.created upload job).owns s u :=
    frame_placed hhost (.inl hqueue)
      (.inl rfl : _ ∨ _ = s.rabJobs ++ [submittedJob env call upload.content upload.identity 0])
      hincoming hdirectories hnext
  have husound : u.Sound env := by
    refine hsound.of_frame hframe (hqueue ▸ List.suffix_rfl) rfl ?_ ?_ ?_ ?_
    · intro id hid
      have hid' : s.host.nextJobId ≤ id := by rwa [← hhost]
      have hne : id ≠ job.jobId := (hunplaced.queued.issued.trans_le hid').ne'
      exact (hdirectories id hne).trans (hsound.directories id hid')
    · intro name hname
      have hname' : s.nextIncoming ≤ name := hnext ▸ hname
      exact (hincoming name (hheld.issued.trans_le hname').ne').trans (hsound.incoming name hname')
    · intro row hrow hjob
      obtain hjob | hjob | hjob | hjob := hjob
      · cases hjob
      · cases hjob
      · exact absurd (Resource.job.inj hjob) (hunplaced.row row hrow)
      · cases hjob
    · intro id hid hjob
      obtain hjob | hjob | hjob | hjob := hjob
      · cases hjob
      · cases hjob
      · obtain rfl := Resource.job.inj hjob
        exact hunplaced.place (hqueue ▸ hid)
      · cases hjob
  obtain hrows | hrows := hrows
  · rwa [hu, ← hrows] at husound
  · have hrow : u.host.jobs job.jobId = some job := hhost ▸ hunplaced.queued.row
    have hissued : job.jobId < u.host.nextJobId := hhost ▸ hunplaced.queued.issued
    have hadded : ({ u with rabJobs := s.rabJobs ++ [submittedJob env call upload.content
        upload.identity job.jobId] } : Store).Sound env :=
      husound.addRow hrow rfl hunplaced.digest hissued fun other hother =>
        ⟨hunplaced.row other hother, hkey other hother⟩
    rwa [hu, ← hrows] at hadded

/-- A part of a call keeps the invariant of the store. -/
lemma Part.store_sound {point point' : CallPoint} (h : Part env call s t point point')
    (hsound : s.Sound env) (hpoint : point.Sound env call s) : t.Sound env := by
  cases h with
  | arrives held name same => exact same.sound hsound (.inr held.issued)
  | turnedAway same fresh => exact same.sound hsound fresh
  | repeats answers duplicate same =>
      exact same.sound hsound (.inr (hpoint.issued.trans_le same.nextIncoming))
  | looks key state => exact state ▸ hsound
  | prepares artifact_eq state => exact state ▸ hsound
  | rejects place same =>
      obtain rfl | rfl := place
      · exact same.sound hsound (.inr (hpoint.issued.trans_le same.nextIncoming))
      · exact same.sound hsound (.inr (hpoint.1.issued.trans_le same.nextIncoming))
  | creates jobId status artifact_eq state =>
      exact state ▸ hsound.saved (.inr ⟨_, jobId, rfl⟩)
  | @uncreated upload artifact error u host rest same =>
      have hsaved : u.Sound env := rest ▸ hsound.saved host
      have hnext : u.nextIncoming = s.nextIncoming := by rw [rest]
      refine same.sound hsaved (.inr ?_)
      exact (hnext ▸ hpoint.1.issued).trans_le same.nextIncoming
  | @places upload job state =>
      obtain ⟨hheld, -, hunplaced⟩ := id hpoint
      obtain ⟨text, key, -, -, hidentity⟩ := identify_eq_ok hheld.arrives.identified
      subst state
      have hplaced := hsound.placed (t := { s with
          rabJobs := s.rabJobs ++ [submittedJob env call upload.content upload.identity job.jobId]
          incoming := Function.update s.incoming upload.name none
          directories := Function.update s.directories job.jobId (some (some upload.content)) })
        hpoint rfl rfl (.inr rfl) (fun other hne => Function.update_of_ne hne ..)
        (fun id hne => Function.update_of_ne hne ..) rfl
      refine hplaced.enqueue ⟨hunplaced.queued, ⟨upload.content, Function.update_self .., ?_⟩,
        hunplaced.place⟩
      rw [hunplaced.digest, hidentity]
  | breaks host queue rabJobs incoming directories nextIncoming =>
      exact hsound.placed hpoint host queue rabJobs incoming directories nextIncoming
  | answers answers duplicate jobId same =>
      exact same.sound hsound (.inr (hpoint.2.1.trans_le same.nextIncoming))
  | unanswered same => exact same.sound hsound (.inr (hpoint.2.1.trans_le same.nextIncoming))

/-- A part of a call brings it where its own assertion holds. -/
lemma Part.sound {point point' : CallPoint} (h : Part env call s t point point')
    (hsound : s.Sound env) (hpoint : point.Sound env call s) : point'.Sound env call t := by
  have hanswers : ∀ {upload : Upload} {answer : AnalysisJobAccepted} {row : SubmittedJob},
      Answers env call s answer upload.profile upload.content upload.identity row →
      s.SameBut upload.name t → CallPoint.Sound env call t (.answered answer) :=
    fun h same => ⟨_, _, _, _, { h with mem := same.rabJobs ▸ h.mem }⟩
  cases h with
  | arrives held name same => exact held
  | turnedAway same fresh => trivial
  | repeats answers duplicate same => exact hanswers answers same
  | looks key state => exact state ▸ ⟨hpoint, key⟩
  | prepares artifact_eq state => exact state ▸ ⟨hpoint.1, hpoint.2, artifact_eq⟩
  | rejects place same => trivial
  | @creates upload artifact job jobId status artifact_eq state =>
      obtain ⟨hheld, hkey, hartifact⟩ := hpoint
      obtain ⟨text, key, -, -, hidentity⟩ := identify_eq_ok hheld.arrives.identified
      subst state
      refine ⟨⟨hheld.arrives, hheld.issued, hheld.file⟩, hkey, ⟨status, ?_, ?_⟩, ?_, ?_, ?_, ?_⟩
      · exact Host.saved_jobs_self _ _
      · change job.jobId < s.host.nextJobId + 1
        exact jobId ▸ Nat.lt_succ_self _
      · exact hsound.directories _ jobId.ge
      · exact fun row hrow => jobId ▸ (hsound.issued row hrow).ne
      · intro hmem
        obtain ⟨other, hother, hid⟩ := exists_of_mem_itemIds hmem
        have hissued : other.jobId < s.host.nextJobId := (hsound.queued other hother).1.issued
        exact hissued.ne (hid.trans jobId)
      · rw [artifact_eq, artifactOf_sha256 hartifact, hidentity]
  | uncreated host rest same => trivial
  | places state =>
      obtain ⟨hheld, -, -⟩ := hpoint
      subst state
      exact ⟨hheld.arrives, hheld.issued, List.mem_append_right _ (List.mem_singleton_self _)⟩
  | breaks host queue rabJobs incoming directories nextIncoming =>
      obtain ⟨-, -, hunplaced⟩ := hpoint
      exact ⟨host ▸ hunplaced.queued.issued, queue ▸ hunplaced.place⟩
  | answers answers duplicate jobId same => exact hanswers answers same
  | unanswered same => exact ⟨_, same.rabJobs ▸ hpoint.2.2, rfl⟩

/-! ## The parts of the other threads -/

variable {senv : ServiceEnv} {job : ScanJob} {items : List (Option ScanJob)} {i : ℕ}

/-- Taking the first item of the queue. -/
lemma taken_of_queue (hsound : s.Sound env) (hqueue : s.queue = some job :: items) :
    Taken env job { s with queue := items } := by
  obtain ⟨hqueued, hupload⟩ := hsound.queued job (hqueue ▸ List.mem_cons_self)
  refine ⟨hqueued, hupload, ?_⟩
  have hdistinct := hsound.distinct
  rw [hqueue] at hdistinct
  exact (List.nodup_cons.1 hdistinct).1

lemma frame_queue {item : Option ScanJob} (hqueue : s.queue = item :: items) :
    Store.Frame own s { s with queue := items } :=
  ⟨le_rfl, fun _ _ _ => rfl, fun _ _ _ => rfl, le_rfl, fun _ _ _ => rfl, List.prefix_rfl,
    fun _ => rfl, fun id hid => .inl (by
      rw [hqueue]
      exact (List.sublist_cons_self item items).filterMap _ |>.subset hid)⟩

lemma Store.Sound.dequeue (hsound : s.Sound env) {item : Option ScanJob}
    (hqueue : s.queue = item :: items) : ({ s with queue := items } : Store).Sound env :=
  have hframe : Store.Frame ∅ s { s with queue := items } := frame_queue hqueue
  hsound.of_frame hframe (hqueue ▸ List.suffix_cons _ _) rfl
    hsound.directories hsound.incoming (fun _ _ h => h.elim) fun _ _ h => h.elim

/-- What is done with a job that a thread has taken. -/
structure Handles (job : ScanJob) (s t : Store) : Prop where
  nextJobId : s.host.nextJobId ≤ t.host.nextJobId
  jobs : ∀ id < s.host.nextJobId, id ≠ job.jobId → t.host.jobs id = s.host.jobs id
  row : ∃ stored, t.host.jobs job.jobId = some stored ∧ stored.jobId = job.jobId ∧
    stored.inputArtifact = job.inputArtifact
  directories : ∀ id, id ≠ job.jobId → t.directories id = s.directories id
  rabJobs : t.rabJobs = s.rabJobs
  queue : t.queue = s.queue
  incoming : t.incoming = s.incoming
  nextIncoming : t.nextIncoming = s.nextIncoming

/-- The job is over: its stored row has a terminal status, and its upload is gone. -/
def Store.Over (s : Store) (id : JobId) : Prop :=
  ScanService.StoredAs s.host id terminalStatuses ∧ s.upload id = none

lemma Handles.removed {u : Store} {fault : Option Exc} (h : Handles job s u) :
    Handles job s (final (removeUpload senv fault job.jobId) u) := by
  cases fault with
  | some exc => exact h
  | none =>
      refine ⟨h.nextJobId, h.jobs, h.row, fun id hne => ?_, h.rabJobs, h.queue, h.incoming,
        h.nextIncoming⟩
      exact (Function.update_of_ne hne ..).trans (h.directories id hne)

lemma removeUpload_eq_ok {fault : Option Exc} {id : JobId}
    (h : removeUpload senv fault id s = .ok () t) :
    fault = none ∧ t.host = s.host ∧ t.upload id = none := by
  obtain ⟨hfault, h⟩ := raiseIf_bind_eq_ok.1 h
  obtain ⟨-, rfl⟩ := EStateM.Result.ok.inj h
  refine ⟨hfault, rfl, ?_⟩
  simp only [Store.upload, Function.update_self]
  split
  · cases s.directories id <;> rfl
  · rfl

/-- A worker serves a job, and the job is over if no exception leaves the loop. -/
lemma serveJob_handles (hqueued : Queued s.host job) :
    Handles job s (final (serveJob senv job) s) ∧
      (Returns (serveJob senv job) s → (final (serveJob senv job) s).Over job.jobId) := by
  set x : EStateM Exc Store Unit := zoom (fun s : Store => (⟨job, s.host⟩ : ScanState))
    (fun (state : ScanState) s => { s with host := state.host }) (runItem (senv.worker s)) with hx
  have hrun : serveJob senv job s =
      tryFinally x (removeUpload senv (senv.removeUpload job.jobId) job.jobId) s := rfl
  have hfinal : final x s =
      { s with host := (final (runItem (senv.worker s)) ⟨job, s.host⟩).host } := by
    rw [hx, final, final, zoom]
    cases runItem (senv.worker s) ⟨job, s.host⟩ <;> rfl
  have hreturns : Returns x s ↔ Returns (runItem (senv.worker s)) ⟨job, s.host⟩ := by
    rw [hx, Returns, raised, Returns, raised, zoom]
    cases runItem (senv.worker s) ⟨job, s.host⟩ <;> rfl
  have hothers := @runItem_others (senv.worker s) job s.host hqueued
  have hserved : Handles job s (final x s) := by
    rw [hfinal]
    exact ⟨hothers.nextJobId, hothers.rows, runItem_row hqueued, fun _ _ => rfl, rfl, rfl, rfl, rfl⟩
  rw [Returns, raised, final, hrun, ← raised, ← final, ← Returns, final_tryFinally,
    returns_tryFinally]
  refine ⟨hserved.removed, fun hreturned => ?_⟩
  obtain ⟨hitem, hremoves⟩ := hreturned
  obtain ⟨⟨⟩, t, hremove⟩ := returns_iff.1 hremoves
  obtain ⟨hfault, hhost, hupload⟩ := removeUpload_eq_ok hremove
  rw [final_of_ok hremove]
  refine ⟨?_, hupload⟩
  rw [hhost, hfinal]
  exact (runItem_returns hqueued hfault).2 (hreturns.1 hitem)

/-- The service is shut down before a job is served. -/
lemma interrupt_handles (hqueued : Queued s.host job) :
    Handles job s (final (interrupt senv job) s) ∧
      (Returns (interrupt senv job) s → (final (interrupt senv job) s).Over job.jobId) := by
  set failed : ScanJob := { job.addError
    "ANALYSIS_FAILED: interrupted by graceful service shutdown" with
      status := .failed } with hfailed
  have hmem : JobStatus.failed ∈ transitions (job.addError
      "ANALYSIS_FAILED: interrupted by graceful service shutdown").status := by
    simp [ScanJob.addError, hqueued.status, transitions]
  have hrun : interrupt senv job s =
      (zoom Store.host (fun host s => { s with host := host })
        (JobService.save (senv.saveInterrupted job.jobId) failed) >>= fun _ =>
          removeUpload senv (senv.removeInterrupted job.jobId) job.jobId) s := by
    rw [interrupt, ScanJob.transition_of_mem hmem]
    rfl
  rw [Returns, raised, final, hrun, ← raised, ← final, ← Returns]
  cases hsave : senv.saveInterrupted job.jobId with
  | some exc =>
      refine ⟨⟨le_rfl, fun _ _ _ => rfl, ⟨job, hqueued.row, rfl, rfl⟩, fun _ _ => rfl, rfl, rfl,
        rfl, rfl⟩, fun hreturns => ?_⟩
      obtain ⟨⟨⟩, t, h⟩ := returns_iff.1 hreturns
      cases h
  | none =>
      set u : Store := { s with host := s.host.saved failed } with hu
      have hsaved : zoom Store.host (fun host s => { s with host := host })
          (JobService.save none failed) s = .ok () u := rfl
      have hhandled : Handles job s u :=
        ⟨le_rfl, fun id _ hne => Host.saved_jobs_of_ne _ _ hne,
          ⟨failed, Host.saved_jobs_self _ failed, rfl, rfl⟩, fun _ _ => rfl, rfl, rfl, rfl, rfl⟩
      rw [final_bind_of_ok hsaved]
      refine ⟨hhandled.removed, fun hreturns => ?_⟩
      obtain ⟨⟨⟩, t, h⟩ := returns_iff.1 hreturns
      rw [bind_of_ok hsaved] at h
      obtain ⟨-, hhost, hupload⟩ := removeUpload_eq_ok h
      rw [final_of_ok h]
      refine ⟨⟨failed, ?_, rfl, by simp [hfailed, terminalStatuses]⟩, hupload⟩
      rw [hhost]
      exact Host.saved_jobs_self _ failed

lemma Handles.frame (h : Handles job s t) : Store.Frame {.job job.jobId} s t where
  nextJobId := h.nextJobId
  jobs id hid hown := h.jobs id hid fun heq => hown (heq ▸ rfl)
  directories id _ hown := h.directories id fun heq => hown (heq ▸ rfl)
  nextIncoming := h.nextIncoming.ge
  incoming _ _ _ := by rw [h.incoming]
  rows := by rw [h.rabJobs]
  locked _ := h.rabJobs
  queue id hid := .inl (by rwa [h.queue] at hid)

lemma Handles.sound (h : Handles job s t) (hsound : s.Sound env) (htaken : Taken env job s) :
    t.Sound env := by
  refine hsound.of_frame h.frame (h.queue ▸ List.suffix_rfl) h.rabJobs ?_ ?_ ?_ ?_
  · intro id hid
    have hne : id ≠ job.jobId := (htaken.queued.issued.trans_le (h.nextJobId.trans hid)).ne'
    exact (h.directories id hne).trans (hsound.directories id (h.nextJobId.trans hid))
  · rw [h.incoming, h.nextIncoming]
    exact hsound.incoming
  · intro row hrow hjob
    obtain hid := Resource.job.inj (Set.mem_singleton_iff.1 hjob)
    obtain ⟨stored, hstored, -, hdigest⟩ := hsound.stored row hrow
    rw [hid, htaken.queued.row] at hstored
    obtain rfl := Option.some.inj hstored
    obtain ⟨kept, hkept, hkeptId, hartifact⟩ := h.row
    exact ⟨kept, hid ▸ hkept, hkeptId.trans hid.symm, hartifact ▸ hdigest⟩
  · intro id hid hjob
    obtain rfl := Resource.job.inj (Set.mem_singleton_iff.1 hjob)
    exact htaken.place (h.queue ▸ hid)

/-- The job of a thread that an exception has left. -/
lemma Handles.dead (h : Handles job s t) (htaken : Taken env job s) :
    job.jobId < t.host.nextJobId ∧ job.jobId ∉ itemIds t.queue :=
  ⟨htaken.queued.issued.trans_le h.nextJobId, h.queue ▸ htaken.place⟩

/-- What a step of a worker can do. -/
inductive WorkerPart (i : ℕ) (x x' : Shared) : WorkerPoint → WorkerPoint → Prop
  | takes {job : ScanJob} {items : List (Option ScanJob)}
      (queue : x.store.queue = some job :: items)
      (state : x' = { x with store := { x.store with queue := items } }) :
      WorkerPart i x x' .waiting (.holding job)
  | stops {items : List (Option ScanJob)} (queue : x.store.queue = none :: items)
      (state : x' = { x with
        store := { x.store with queue := items }
        ended := Function.update x.ended i true }) : WorkerPart i x x' .waiting .stopped
  | serves {job : ScanJob} (handles : Handles job x.store x'.store)
      (finished : x'.store.Over job.jobId) (rest : x' = { x with store := x'.store }) :
      WorkerPart i x x' (.holding job) .waiting
  | dies {job : ScanJob} (handles : Handles job x.store x'.store)
      (rest : x' = { x with store := x'.store, ended := Function.update x.ended i true }) :
      WorkerPart i x x' (.holding job) (.dead job.jobId)

/-- What a step of `shutdown` can do. -/
inductive ClosingPart (env : ServiceEnv) (x x' : Shared) : ClosingPoint → ClosingPoint → Prop
  | begins (state : x' = x) : ClosingPart env x x' .serving .draining
  | takes {job : ScanJob} {items : List (Option ScanJob)}
      (queue : x.store.queue = some job :: items)
      (state : x' = { x with store := { x.store with queue := items } }) :
      ClosingPart env x x' .draining (.interrupting job)
  | skips {items : List (Option ScanJob)} (queue : x.store.queue = none :: items)
      (state : x' = { x with store := { x.store with queue := items } }) :
      ClosingPart env x x' .draining .draining
  | drained (queue : x.store.queue = []) (state : x' = x) :
      ClosingPart env x x' .draining (.stopping env.workers.length)
  | interrupts {job : ScanJob} (handles : Handles job x.store x'.store)
      (finished : x'.store.Over job.jobId) (rest : x' = { x with store := x'.store }) :
      ClosingPart env x x' (.interrupting job) .draining
  | dies {job : ScanJob} (handles : Handles job x.store x'.store)
      (rest : x' = { x with store := x'.store }) :
      ClosingPart env x x' (.interrupting job) (.dead job.jobId)
  | puts {left : ℕ} (state : x' = { x with
      store := { x.store with queue := x.store.queue ++ [none] } }) :
      ClosingPart env x x' (.stopping (left + 1)) (.stopping left)
  | stopped (state : x' = x) : ClosingPart env x x' (.stopping 0) (.joining env.workers)
  | joins {worker : ℕ} {left : List ℕ} (ended : x.ended worker = true) (state : x' = x) :
      ClosingPart env x x' (.joining (worker :: left)) (.joining left)
  | returns (state : x' = x) : ClosingPart env x x' (.joining []) .returned

lemma worker_part {point point' : WorkerPoint} (hpoint : point.Sound senv.submit x.store)
    (h : advanceWorker senv i x point = some (x', point')) : WorkerPart i x x' point point' := by
  cases point with
  | waiting =>
      rw [advanceWorker] at h
      cases hqueue : x.store.queue with
      | nil =>
          rw [hqueue] at h
          cases h
      | cons item items =>
          rw [hqueue] at h
          cases item with
          | none =>
              obtain ⟨rfl, rfl⟩ := Prod.mk.inj (Option.some.inj h)
              exact .stops hqueue rfl
          | some job =>
              obtain ⟨rfl, rfl⟩ := Prod.mk.inj (Option.some.inj h)
              exact .takes hqueue rfl
  | holding job =>
      obtain ⟨hhandles, hover⟩ := @serveJob_handles x.store senv job (Taken.queued hpoint)
      rw [advanceWorker] at h
      cases hserve : serveJob senv job x.store with
      | ok a t =>
          rw [hserve] at h
          obtain ⟨rfl, rfl⟩ := Prod.mk.inj (Option.some.inj h)
          rw [final_of_ok hserve] at hhandles hover
          exact .serves hhandles (hover (returns_iff.2 ⟨a, t, hserve⟩)) rfl
      | error exc t =>
          rw [hserve] at h
          obtain ⟨rfl, rfl⟩ := Prod.mk.inj (Option.some.inj h)
          rw [final_of_error hserve] at hhandles
          exact .dies hhandles rfl
  | stopped => cases h
  | dead id => cases h

lemma closing_part {point point' : ClosingPoint} (hpoint : point.Sound senv.submit x.store)
    (h : advanceClosing senv x point = some (x', point')) : ClosingPart senv x x' point point' := by
  cases point with
  | serving =>
      obtain ⟨rfl, rfl⟩ := Prod.mk.inj (Option.some.inj h)
      exact .begins rfl
  | draining =>
      rw [advanceClosing] at h
      cases hqueue : x.store.queue with
      | nil =>
          rw [hqueue] at h
          obtain ⟨rfl, rfl⟩ := Prod.mk.inj (Option.some.inj h)
          exact .drained hqueue rfl
      | cons item items =>
          rw [hqueue] at h
          cases item with
          | none =>
              obtain ⟨rfl, rfl⟩ := Prod.mk.inj (Option.some.inj h)
              exact .skips hqueue rfl
          | some job =>
              obtain ⟨rfl, rfl⟩ := Prod.mk.inj (Option.some.inj h)
              exact .takes hqueue rfl
  | interrupting job =>
      obtain ⟨hhandles, hover⟩ := @interrupt_handles x.store senv job (Taken.queued hpoint)
      rw [advanceClosing] at h
      cases hinterrupt : interrupt senv job x.store with
      | ok a t =>
          rw [hinterrupt] at h
          obtain ⟨rfl, rfl⟩ := Prod.mk.inj (Option.some.inj h)
          rw [final_of_ok hinterrupt] at hhandles hover
          exact .interrupts hhandles (hover (returns_iff.2 ⟨a, t, hinterrupt⟩)) rfl
      | error exc t =>
          rw [hinterrupt] at h
          obtain ⟨rfl, rfl⟩ := Prod.mk.inj (Option.some.inj h)
          rw [final_of_error hinterrupt] at hhandles
          exact .dies hhandles rfl
  | stopping left =>
      cases left with
      | zero =>
          obtain ⟨rfl, rfl⟩ := Prod.mk.inj (Option.some.inj h)
          exact .stopped rfl
      | succ left =>
          rw [advanceClosing] at h
          split at h
          · obtain ⟨rfl, rfl⟩ := Prod.mk.inj (Option.some.inj h)
            exact .puts rfl
          · cases h
  | joining left =>
      cases left with
      | nil =>
          obtain ⟨rfl, rfl⟩ := Prod.mk.inj (Option.some.inj h)
          exact .returns rfl
      | cons worker left =>
          rw [advanceClosing] at h
          split at h
          next hended =>
            obtain ⟨rfl, rfl⟩ := Prod.mk.inj (Option.some.inj h)
            exact .joins hended rfl
          · cases h
  | returned => cases h
  | dead id => cases h

/-! ## One step of any thread -/

variable {point point' : Point}

lemma keeps_of_frame (hstore : x.store.Sound env) (hsound : x'.store.Sound env)
    (hpoint : ThreadSound env x' point')
    (hframe : Store.Frame point.owns x.store x'.store)
    (hlocked : x'.locked = x.locked ∨ x.locked = false ∨ .lock ∈ point.owns)
    (hgains : ∀ r ∈ point'.owns, r ∈ point.owns ∨ ¬r.Taken x) :
    Keeps (fun x : Shared => x.store.Sound env) (fun _ : ℕ => ThreadSound env) Point.owns i
      x point x' point' where
  shared := hsound
  own := hpoint
  others j other _ hother hapart := by
    refine ⟨⟨hframe.sound hother.sound hapart, fun hlock => ?_⟩, Set.disjoint_left.2 ?_⟩
    · obtain h | h | h := hlocked
      · exact h.trans (hother.lock hlock)
      · cases h.symm.trans (hother.lock hlock)
      · exact absurd hlock (Set.disjoint_left.1 hapart h)
    · intro r hr hr'
      obtain h | h := hgains r hr
      · exact Set.disjoint_left.1 hapart h hr'
      · exact h (hother.taken hstore r hr')

lemma lock_mem_owns (point : CallPoint) : .lock ∈ point.owns ↔ point.locked = true := by
  cases point <;> simp [CallPoint.owns, CallPoint.locked]

/-- Nothing but the part that takes the lock comes to hold it. -/
lemma Part.locked {point point' : CallPoint} (h : Part env call s t point point')
    (hlocked : point'.locked = true) : point.locks = true ∨ point.locked = true := by
  cases h with
  | looks key state => exact .inl rfl
  | prepares artifact_eq state => exact .inr rfl
  | creates jobId status artifact_eq state => exact .inr rfl
  | rejects place same => cases hlocked
  | _ => cases hlocked

lemma advanceCall_eq_some {point point' : CallPoint} (hsound : x.store.Sound env)
    (hpoint : point.Sound env call x.store)
    (h : advanceCall env call x point = some (x', point')) :
    Part env call x.store x'.store point point' ∧ (point.locks = true → x.locked = false) ∧
      x'.locked = (if point.locks || point.locked then point'.locked else x.locked) ∧
      x'.ended = x.ended := by
  unfold advanceCall at h
  by_cases hwaits : (point.closed || point.locks && x.locked) = true
  · rw [if_pos hwaits] at h
    cases h
  · rw [if_neg hwaits] at h
    simp only [Bool.or_eq_true, Bool.and_eq_true, not_or, not_and, Bool.not_eq_true] at hwaits
    obtain ⟨hok, herror⟩ := next_part hsound hpoint hwaits.1
    cases hnext : point.next env call x.store with
    | ok point'' t =>
        rw [hnext] at h
        obtain ⟨rfl, rfl⟩ := Prod.mk.inj (Option.some.inj h)
        exact ⟨hok _ _ hnext, hwaits.2, rfl, rfl⟩
    | error error t =>
        rw [hnext] at h
        obtain ⟨rfl, rfl⟩ := Prod.mk.inj (Option.some.inj h)
        exact ⟨herror _ _ hnext, hwaits.2, rfl, rfl⟩

lemma call_keeps {point point' : CallPoint} (hsound : x.store.Sound env)
    (hthread : ThreadSound env x (.call call point))
    (h : advanceCall env call x point = some (x', point')) :
    Keeps (fun x : Shared => x.store.Sound env) (fun _ : ℕ => ThreadSound env) Point.owns i
      x (.call call point) x' (.call call point') := by
  obtain ⟨hpart, htakes, hlocked, -⟩ := advanceCall_eq_some hsound hthread.sound h
  refine keeps_of_frame hsound (hpart.store_sound hsound hthread.sound)
    ⟨hpart.sound hsound hthread.sound, fun hlock => ?_⟩ hpart.frame ?_
    (hpart.gains htakes rfl)
  · have hpoint' := (lock_mem_owns point').1 hlock
    obtain hlocks | hlocks := hpart.locked hpoint' <;> simp [hlocked, hlocks, hpoint']
  · by_cases hlocks : point.locks = true
    · exact .inr (.inl (htakes hlocks))
    by_cases hholds : point.locked = true
    · exact .inr (.inr ((lock_mem_owns point).2 hholds))
    · rw [Bool.not_eq_true] at hlocks hholds
      exact .inl (by rw [hlocked, hlocks, hholds]; rfl)

/-- A thread takes the first item of the queue. -/
lemma take_keeps {ended : ℕ → Bool} (hsound : x.store.Sound env)
    (hqueue : x.store.queue = some job :: items) (hpoint : point'.owns = {.job job.jobId})
    (hsound' : Taken env job { x.store with queue := items } →
      point'.Sound env { x.store with queue := items }) :
    Keeps (fun x : Shared => x.store.Sound env) (fun _ : ℕ => ThreadSound env) Point.owns i
      x point { x with store := { x.store with queue := items }, ended := ended } point' := by
  refine keeps_of_frame hsound (hsound.dequeue hqueue)
    ⟨hsound' (taken_of_queue hsound hqueue), fun hlock => ?_⟩ (frame_queue hqueue) (.inl rfl) ?_
  · rw [hpoint] at hlock
    cases hlock
  · intro r hr
    rw [hpoint] at hr
    obtain rfl := Set.mem_singleton_iff.1 hr
    exact .inr fun htaken => htaken.2 (by rw [hqueue]; exact mem_itemIds List.mem_cons_self)

/-- A thread passes over a sentinel. -/
lemma skip_keeps {ended : ℕ → Bool} (hsound : x.store.Sound env)
    (hqueue : x.store.queue = none :: items) (hpoint : point'.owns = ∅)
    (hsound' : point'.Sound env { x.store with queue := items }) :
    Keeps (fun x : Shared => x.store.Sound env) (fun _ : ℕ => ThreadSound env) Point.owns i
      x point { x with store := { x.store with queue := items }, ended := ended } point' := by
  refine keeps_of_frame hsound (hsound.dequeue hqueue) ⟨hsound', fun hlock => ?_⟩
    (frame_queue hqueue) (.inl rfl) fun r hr => ?_
  · rw [hpoint] at hlock
    exact hlock.elim
  · rw [hpoint] at hr
    exact hr.elim

/-- A thread is done with the job that it has taken. -/
lemma handle_keeps {ended : ℕ → Bool} (hsound : x.store.Sound env)
    (htaken : Taken env job x.store) (hhandles : Handles job x.store t)
    (hpoint : point.owns = {.job job.jobId})
    (hpoint' : ∀ r ∈ point'.owns, r = .job job.jobId)
    (hsound' : job.jobId < t.host.nextJobId ∧ job.jobId ∉ itemIds t.queue → point'.Sound env t) :
    Keeps (fun x : Shared => x.store.Sound env) (fun _ : ℕ => ThreadSound env) Point.owns i
      x point { x with store := t, ended := ended } point' := by
  refine keeps_of_frame hsound (hhandles.sound hsound htaken)
    ⟨hsound' (hhandles.dead htaken), fun hlock => ?_⟩ (hpoint ▸ hhandles.frame) (.inl rfl) ?_
  · cases hpoint' _ hlock
  · intro r hr
    rw [hpoint]
    exact .inl (hpoint' r hr)

lemma itemIds_sentinel (items : List (Option ScanJob)) :
    itemIds (items ++ [none]) = itemIds items := by
  simp [itemIds]

/-- A step that changes nothing but where a thread is. -/
lemma stay_keeps {queue : List (Option ScanJob)} (hsound : x.store.Sound env)
    (hqueue : queue = x.store.queue ∨ queue = x.store.queue ++ [none])
    (hpoint : point'.owns = ∅) (hsound' : ∀ s, point'.Sound env s) :
    Keeps (fun x : Shared => x.store.Sound env) (fun _ : ℕ => ThreadSound env) Point.owns i
      x point { x with store := { x.store with queue := queue } } point' := by
  have hids : itemIds queue = itemIds x.store.queue := by
    obtain rfl | rfl := hqueue
    · rfl
    · exact itemIds_sentinel _
  have hmem : ∀ job, some job ∈ queue → some job ∈ x.store.queue := by
    intro job hjob
    obtain rfl | rfl := hqueue
    · exact hjob
    · simpa using hjob
  refine keeps_of_frame hsound ⟨hsound.directories, hsound.incoming, hsound.issued, hsound.apart,
    hsound.stored, fun job hjob => hsound.queued job (hmem job hjob), hids ▸ hsound.distinct⟩
    ⟨hsound' _, fun hlock => ?_⟩ ⟨le_rfl, fun _ _ _ => rfl, fun _ _ _ => rfl, le_rfl,
      fun _ _ _ => rfl, List.prefix_rfl, fun _ => rfl, fun id hid => .inl (hids ▸ hid)⟩
    (.inl rfl) ?_
  · rw [hpoint] at hlock
    exact hlock.elim
  · intro r hr
    rw [hpoint] at hr
    exact hr.elim

lemma worker_keeps {point point' : WorkerPoint} (hsound : x.store.Sound senv.submit)
    (hthread : ThreadSound senv.submit x (.worker point))
    (h : advanceWorker senv i x point = some (x', point')) :
    Keeps (fun x : Shared => x.store.Sound senv.submit) (fun _ : ℕ => ThreadSound senv.submit)
      Point.owns i x (.worker point) x' (.worker point') := by
  cases worker_part hthread.sound h with
  | takes queue state =>
      subst state
      exact take_keeps hsound queue rfl id
  | stops queue state =>
      subst state
      exact skip_keeps hsound queue rfl trivial
  | serves handles finished rest =>
      rw [rest]
      exact handle_keeps hsound hthread.sound handles rfl (fun r hr => hr.elim) fun _ => trivial
  | dies handles rest =>
      rw [rest]
      exact handle_keeps hsound hthread.sound handles rfl (fun r hr => hr) id

lemma closing_keeps {point point' : ClosingPoint} (hsound : x.store.Sound senv.submit)
    (hthread : ThreadSound senv.submit x (.closing point))
    (h : advanceClosing senv x point = some (x', point')) :
    Keeps (fun x : Shared => x.store.Sound senv.submit) (fun _ : ℕ => ThreadSound senv.submit)
      Point.owns i x (.closing point) x' (.closing point') := by
  have hstay {point' : ClosingPoint} (hpoint : point'.owns = ∅)
      (hsound' : ∀ s, point'.Sound senv.submit s) :
      Keeps (fun x : Shared => x.store.Sound senv.submit) (fun _ : ℕ => ThreadSound senv.submit)
        Point.owns i x (.closing point) x (.closing point') :=
    stay_keeps hsound (.inl rfl) hpoint hsound'
  cases closing_part hthread.sound h with
  | begins state =>
      rw [state]
      exact hstay rfl fun _ => trivial
  | takes queue state =>
      subst state
      exact take_keeps hsound queue rfl id
  | skips queue state =>
      subst state
      exact skip_keeps hsound queue rfl trivial
  | drained queue state =>
      rw [state]
      exact hstay rfl fun _ => trivial
  | interrupts handles finished rest =>
      rw [rest]
      exact handle_keeps hsound hthread.sound handles rfl (fun r hr => hr.elim) fun _ => trivial
  | dies handles rest =>
      rw [rest]
      exact handle_keeps hsound hthread.sound handles rfl (fun r hr => hr) id
  | puts state =>
      subst state
      exact stay_keeps hsound (.inr rfl) rfl fun _ => trivial
  | stopped state =>
      rw [state]
      exact hstay rfl fun _ => trivial
  | joins ended state =>
      rw [state]
      exact hstay rfl fun _ => trivial
  | returns state =>
      rw [state]
      exact hstay rfl fun _ => trivial

/-- A step of any thread keeps the invariant. -/
lemma advance_keeps (hsound : x.store.Sound senv.submit) (hthread : ThreadSound senv.submit x point)
    (h : advance senv i x point = some (x', point')) :
    Keeps (fun x : Shared => x.store.Sound senv.submit) (fun _ : ℕ => ThreadSound senv.submit)
      Point.owns i x point x' point' := by
  cases point with
  | call submission point =>
      obtain ⟨⟨y, q⟩, hadvance, heq⟩ := Option.map_eq_some_iff.1 h
      obtain ⟨rfl, rfl⟩ := Prod.mk.inj heq
      exact call_keeps hsound hthread hadvance
  | worker point =>
      obtain ⟨⟨y, q⟩, hadvance, heq⟩ := Option.map_eq_some_iff.1 h
      obtain ⟨rfl, rfl⟩ := Prod.mk.inj heq
      exact worker_keeps hsound hthread hadvance
  | closing point =>
      obtain ⟨⟨y, q⟩, hadvance, heq⟩ := Option.map_eq_some_iff.1 h
      obtain ⟨rfl, rfl⟩ := Prod.mk.inj heq
      exact closing_keeps hsound hthread hadvance

/-- What a step of any thread can do. -/
inductive ServicePart (env : ServiceEnv) (i : ℕ) (x x' : Shared) : Point → Point → Prop
  | call {submission : Submission} {point point' : CallPoint}
      (part : Part env.submit submission x.store x'.store point point')
      (ended : x'.ended = x.ended) :
      ServicePart env i x x' (.call submission point) (.call submission point')
  | worker {point point' : WorkerPoint} (part : WorkerPart i x x' point point') :
      ServicePart env i x x' (.worker point) (.worker point')
  | closing {point point' : ClosingPoint} (part : ClosingPart env x x' point point') :
      ServicePart env i x x' (.closing point) (.closing point')

lemma advance_part (hsound : x.store.Sound senv.submit) (hthread : ThreadSound senv.submit x point)
    (h : advance senv i x point = some (x', point')) : ServicePart senv i x x' point point' := by
  cases point with
  | call submission point =>
      obtain ⟨⟨y, q⟩, hadvance, heq⟩ := Option.map_eq_some_iff.1 h
      obtain ⟨rfl, rfl⟩ := Prod.mk.inj heq
      obtain ⟨hpart, -, -, hended⟩ := advanceCall_eq_some hsound hthread.sound hadvance
      exact .call hpart hended
  | worker point =>
      obtain ⟨⟨y, q⟩, hadvance, heq⟩ := Option.map_eq_some_iff.1 h
      obtain ⟨rfl, rfl⟩ := Prod.mk.inj heq
      exact .worker (worker_part hthread.sound hadvance)
  | closing point =>
      obtain ⟨⟨y, q⟩, hadvance, heq⟩ := Option.map_eq_some_iff.1 h
      obtain ⟨rfl, rfl⟩ := Prod.mk.inj heq
      exact .closing (closing_part hthread.sound hadvance)

end Invariant

/-! ## Whole runs -/

/-- Where a thread begins. -/
def Point.begins : Point → Bool
  | .call _ .started | .worker .waiting | .closing .serving => true
  | _ => false

/-- No thread has done anything. -/
structure Starts (env : ServiceEnv) (start : State ℕ Shared Point) : Prop where
  store : start.shared.store.Sound env.submit
  unlocked : start.shared.locked = false
  begins : ∀ i, (start.points i).begins = true

section Runs

variable {env : ServiceEnv} {start state : State ℕ Shared Point}
  {trace : List (State ℕ Shared Point × ℕ)} {i j : ℕ}

lemma Point.begins_iff {point : Point} : point.begins = true ↔
    (∃ call, point = .call call .started) ∨ point = .worker .waiting ∨
      point = .closing .serving := by
  cases point with
  | call submission point => cases point <;> simp [Point.begins]
  | worker point => cases point <;> simp [Point.begins]
  | closing point => cases point <;> simp [Point.begins]

lemma Point.owns_of_begins {point : Point} (h : point.begins = true) : point.owns = ∅ := by
  obtain ⟨call, rfl⟩ | rfl | rfl := Point.begins_iff.1 h <;> rfl

lemma Starts.sound (h : Starts env start) : ServiceSound env start where
  shared := h.store
  each i := by
    refine ⟨?_, fun hlock => ?_⟩
    · obtain ⟨call, hpoint⟩ | hpoint | hpoint := Point.begins_iff.1 (h.begins i) <;>
        rw [hpoint] <;> trivial
    · rw [Point.owns_of_begins (h.begins i)] at hlock
      exact hlock.elim
  apart i j _ := by
    rw [Point.owns_of_begins (h.begins i)]
    exact Set.empty_disjoint _

/-- The invariant of the service. -/
theorem ServiceSound.run (hstart : Starts env start) (hrun : ServiceRun env start trace state) :
    ServiceSound env state :=
  Holds.run advance_keeps hrun hstart.sound

lemma ServiceSound.answers (h : ServiceSound env state) {call : Submission}
    {result : AnalysisJobAccepted} (hpoint : state.points i = .call call (.answered result)) :
    CallPoint.Sound env.submit call state.shared.store (.answered result) := by
  have hthread := (h.each i).sound
  rwa [hpoint] at hthread

/-- The text that the fingerprint of a call is the digest of. -/
def Fingerprinted (env : SubmitEnv) (call : Submission) (text : Bytes) : Prop :=
  ∃ content, received env call = .ok content ∧
    encodeText (fingerprintText call (env.scan.sha256 content)) = .ok text

/-- SHA-256 tells the texts of two calls apart. -/
def TellsApart (env : SubmitEnv) (call other : Submission) : Prop :=
  ∀ text text', Fingerprinted env call text → Fingerprinted env other text' →
    env.scan.sha256 text = env.scan.sha256 text' → text = text'

/-- Two calls ask for the same: one request, one profile, and objects with one digest. -/
structure SameRequest (env : SubmitEnv) (call other : Submission) : Prop where
  clientRequestId : call.clientRequestId = other.clientRequestId
  profileId : call.profileId = other.profileId
  content : ∃ content content', received env call = .ok content ∧
    received env other = .ok content' ∧ env.scan.sha256 content = env.scan.sha256 content'

lemma profile_of_checked {env : SubmitEnv} {call : Submission} {profile : AnalysisProfile}
    (h : checkRequest env call = .ok profile) : (env.profiles call.profileId).isSome := by
  unfold checkRequest at h
  cases hprofile : env.profiles call.profileId with
  | none =>
      rw [hprofile] at h
      cases h
  | some profile => rfl

/-- Calls with one fingerprint ask for the same. -/
lemma sameRequest_of_fingerprint {env : SubmitEnv} {call other : Submission}
    {profile profile' : AnalysisProfile} {content content' : Bytes} {identity identity' : Identity}
    (harrives : Arrives env call profile content identity)
    (harrives' : Arrives env other profile' content' identity')
    (hclient : call.client.clientId = other.client.clientId)
    (hprofiles : ∀ id, (env.profiles id).isSome → 0 ∉ id) (hapart : TellsApart env call other)
    (hprint : identity.fingerprint = identity'.fingerprint) : SameRequest env call other := by
  obtain ⟨text, key, htext, -, rfl⟩ := identify_eq_ok harrives.identified
  obtain ⟨text', key', htext', -, rfl⟩ := identify_eq_ok harrives'.identified
  have hsame : text = text' := hapart text text' ⟨content, harrives.received, htext⟩
    ⟨content', harrives'.received, htext'⟩ hprint
  rw [← hsame] at htext'
  obtain ⟨hid, hprofile, hdigest⟩ := fingerprintText_injective
    (hprofiles _ (profile_of_checked harrives.checked))
    (hprofiles _ (profile_of_checked harrives'.checked)) hclient (encodeText_injective htext htext')
  exact ⟨hid, hprofile, content, content', harrives.received, harrives'.received, hdigest⟩

/-- Answers to calls with one key go by one row, and the calls ask for the same. -/
lemma Answers.agree {senv : SubmitEnv} {call other : Submission} {s s' u : Store}
    {answer answer' : AnalysisJobAccepted} {profile profile' : AnalysisProfile}
    {content content' : Bytes} {identity identity' : Identity} {row row' : SubmittedJob}
    (h : Answers senv call s answer profile content identity row)
    (h' : Answers senv other s' answer' profile' content' identity' row')
    (hsound : u.Sound senv) (hmem : row ∈ u.rabJobs) (hmem' : row' ∈ u.rabJobs)
    (hclient : call.client.clientId = other.client.clientId)
    (hkey : call.idempotencyKey = other.idempotencyKey)
    (hprofiles : ∀ id, (senv.profiles id).isSome → 0 ∉ id) (hapart : TellsApart senv call other) :
    answer.jobId = answer'.jobId ∧ answer.objectSha256 = answer'.objectSha256 ∧
      answer.profile = answer'.profile ∧ SameRequest senv call other := by
  -- The digest of the key finds one row.
  obtain ⟨text, key, -, hencoded, hidentity⟩ := identify_eq_ok h.arrives.identified
  obtain ⟨text', key', -, hencoded', hidentity'⟩ := identify_eq_ok h'.arrives.identified
  have hkeys : identity.idempotencyKey = identity'.idempotencyKey := by
    rw [hkey, hencoded'] at hencoded
    rw [hidentity, hidentity', Except.ok.inj hencoded]
  have hsame : row = row' := hsound.row_unique hmem hmem' fun hapart => hapart.2
    ⟨h.clientId.trans (hclient.trans h'.clientId.symm),
      h.idempotencyKey.trans (hkeys.trans h'.idempotencyKey.symm)⟩
  subst hsame
  exact ⟨h.jobId.trans h'.jobId.symm, h.objectSha256.trans h'.objectSha256.symm,
    h.profileId.trans h'.profileId.symm, sameRequest_of_fingerprint h.arrives h'.arrives hclient
      hprofiles hapart (h.fingerprint.symm.trans h'.fingerprint)⟩

/-- What a client may rely on: calls with one key that have been answered, in whatever order the
threads of the service have run, were answered for one job and asked for the same, and one of them
at most has submitted it. -/
theorem answered_once (env : ServiceEnv)
    (hprofiles : ∀ id, (env.submit.profiles id).isSome → 0 ∉ id)
    (hstart : Starts env start) (hrun : ServiceRun env start trace state)
    {call other : Submission} {result result' : AnalysisJobAccepted}
    (hcall : state.points i = .call call (.answered result))
    (hother : state.points j = .call other (.answered result'))
    (hclient : call.client.clientId = other.client.clientId)
    (hkey : call.idempotencyKey = other.idempotencyKey)
    (hapart : TellsApart env.submit call other) :
    result.jobId = result'.jobId ∧ result.objectSha256 = result'.objectSha256 ∧
      result.profile = result'.profile ∧ SameRequest env.submit call other ∧
      (result.duplicate = false → result'.duplicate = false → i = j) := by
  have hsound := ServiceSound.run hstart hrun
  obtain ⟨profile, content, identity, row, hrow⟩ := hsound.answers hcall
  obtain ⟨profile', content', identity', row', hrow'⟩ := hsound.answers hother
  obtain ⟨hjob, hdigest, hprofile, hrequest⟩ :=
    hrow.agree hrow' hsound.shared hrow.mem hrow'.mem hclient hkey hprofiles hapart
  refine ⟨hjob, hdigest, hprofile, hrequest, fun hnew hnew' => ?_⟩
  have howns : .origin result.jobId ∈ (state.points i).owns := by
    rw [hcall]
    exact ⟨hnew, rfl⟩
  have howns' : .origin result.jobId ∈ (state.points j).owns := by
    rw [hother]
    exact ⟨hnew', congrArg Resource.origin hjob⟩
  exact hsound.owner_unique howns howns'

end Runs

/-! ## Two calls with one key -/

/-- A service without workers in which nothing fails. -/
def plainServiceEnv : ServiceEnv where
  submit := plainService
  late := ⟨none, none⟩
  getCompleted := fun _ => none
  getCurrent := fun _ => none
  saveCurrent := fun _ => none
  removeUpload := fun _ => none
  saveInterrupted := fun _ => none
  removeInterrupted := fun _ => none
  keepsDirectory := fun _ => false
  workers := []

/-- Any number of threads make the same call. -/
def manyCalls : State ℕ Shared Point where
  shared := ⟨emptyStore, false, fun _ => false⟩
  points := fun _ => .call (plainCall fun _ => none) .started

lemma emptyStore_sound : emptyStore.Sound plainService where
  directories _ _ := rfl
  incoming _ _ := rfl
  issued _ h := by cases h
  apart := .nil
  stored _ h := by cases h
  queued _ h := by cases h
  distinct := .nil

lemma manyCalls_starts : Starts plainServiceEnv manyCalls :=
  ⟨emptyStore_sound, rfl, fun _ => rfl⟩

/-- Where a thread stands that has got an answer. -/
def Point.answer : Point → Option AnalysisJobAccepted
  | .call _ (.answered answer) => some answer
  | _ => none

lemma tellsApart_self (env : SubmitEnv) (call : Submission) : TellsApart env call call := by
  rintro text text' ⟨content, hreceived, htext⟩ ⟨content', hreceived', htext'⟩ -
  rw [hreceived] at hreceived'
  obtain rfl := Except.ok.inj hreceived'
  exact Except.ok.inj (htext.symm.trans htext')

lemma plainService_profiles {id : PyStr} (h : (plainService.profiles id).isSome) : 0 ∉ id := by
  by_cases hid : id = PyStr.ofString "basic@1"
  · rw [hid]
    decide
  · simp [plainService, hid] at h

/-- Two threads that take turns are both answered, and for one job. -/
theorem turns_answered_once :
    let state := follow (advance plainServiceEnv) [0, 1, 0, 0, 1, 0, 0, 0, 1, 1] manyCalls
    ∃ result result', state.points 0 = .call (plainCall fun _ => none) (.answered result) ∧
      state.points 1 = .call (plainCall fun _ => none) (.answered result') ∧
      result'.duplicate = true ∧ result.jobId = result'.jobId := by
  intro state
  obtain ⟨trace, hrun, -⟩ := run_follow (advance plainServiceEnv)
    [0, 1, 0, 0, 1, 0, 0, 0, 1, 1] manyCalls
  obtain ⟨result, hresult⟩ :
      ∃ result, state.points 0 = .call (plainCall fun _ => none) (.answered result) := ⟨_, rfl⟩
  obtain ⟨result', hresult', hduplicate⟩ :
      ∃ result, state.points 1 = .call (plainCall fun _ => none) (.answered result) ∧
        result.duplicate = true := ⟨_, rfl, rfl⟩
  exact ⟨result, result', hresult, hresult', hduplicate,
    (answered_once plainServiceEnv (fun _ => plainService_profiles) manyCalls_starts hrun
      hresult hresult' rfl rfl (tellsApart_self _ _)).1⟩

end RABService

end AVBox
