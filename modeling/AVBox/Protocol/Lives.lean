import AVBox.Protocol.Restart

/-!
# One life of the service after another

A process ends at any moment, and the next one builds the service again over what it finds in the
database and in the upload root.  The queue, the lock and the threads are gone with the process.

A crash inside a part of a call or of a worker leaves what that part leaves if everything fails
from there on, the cleaning up included.  The faults of a life are arbitrary, so it is enough to
let a life end between two parts.

* `answered_across_lives` is `answered_once` for calls in two lives: the row of the first call is
  what the second is answered by.
* `served_once_ever` says that no life takes up a job of an earlier one.
-/

namespace AVBox

open Program Transitions Threads ScanService

namespace RABService

/-! ## What a construction keeps -/

section Restart

variable {env : ServiceEnv} {renv : RestartEnv} {submit : SubmitEnv} {s t : Store}

/-- A construction reconciles some rows and removes some uploads, however far it comes. -/
lemma final_restart (hkeyed : s.host.Keyed) :
    ∃ ids ids', final (restart env renv) s =
      cleared env ids' { s with host := reconciledAt ids s.host } := by
  obtain hok | ⟨exc, ids, ids', herror⟩ := @restart_cases env renv s hkeyed
  · exact ⟨_, _, final_of_ok hok⟩
  · exact ⟨ids, ids', final_of_error herror⟩

lemma reconciledAt_eq_some {ids : List JobId} {host : Host} {id : JobId} {job : ScanJob}
    (h : (reconciledAt ids host).jobs id = some job) :
    ∃ before, host.jobs id = some before ∧ job.jobId = before.jobId := by
  simp only [reconciledAt] at h
  split at h
  · obtain ⟨before, hbefore, rfl⟩ := Option.map_eq_some_iff.1 h
    exact ⟨before, hbefore, reconciled_jobId before⟩
  · exact ⟨job, h, rfl⟩

lemma reconciledAt_stored {ids : List JobId} {host : Host} {id : JobId} {job : ScanJob}
    (h : host.jobs id = some job) :
    ∃ after, (reconciledAt ids host).jobs id = some after ∧ after.jobId = job.jobId ∧
      after.inputArtifact = job.inputArtifact := by
  simp only [reconciledAt]
  split
  · exact ⟨reconciled job, by rw [h]; rfl, reconciled_jobId job, reconciled_inputArtifact job⟩
  · exact ⟨job, h, rfl, rfl⟩

/-- What a process finds that takes the place of another one. -/
inductive Restarted (s : Store) : Store → Prop
  | quit : Restarted s { s with queue := [] }
  | built {t : Store} (env : ServiceEnv) (renv : RestartEnv) (before : Restarted s t) :
      Restarted s (final (restart env renv) t)

/-- What of a store is there for the next process. -/
structure Store.Kept (submit : SubmitEnv) (s t : Store) : Prop where
  sound : t.Sound submit
  keyed : t.host.Keyed
  queue : t.queue = []
  rows : t.rabJobs = s.rabJobs
  nextJobId : t.host.nextJobId = s.host.nextJobId

lemma Restarted.kept (hsound : s.Sound submit) (hkeyed : s.host.Keyed) (h : Restarted s t) :
    s.Kept submit t := by
  induction h with
  | quit =>
      refine ⟨⟨hsound.directories, hsound.incoming, hsound.issued, hsound.apart, hsound.stored,
        fun job hjob => ?_, .nil⟩, hkeyed, rfl, rfl, rfl⟩
      cases hjob
  | @built t env renv _ ih =>
      obtain ⟨ids, ids', hfinal⟩ := @final_restart env renv t ih.keyed
      rw [hfinal]
      refine ⟨⟨fun id hid => ?_, ih.sound.incoming, ih.sound.issued, ih.sound.apart,
        fun row hrow => ?_, fun job hjob => ?_, ih.sound.distinct⟩, fun id job hjob => ?_, ih.queue,
        ih.rows, ih.nextJobId⟩
      · have hnone : t.directories id = none := ih.sound.directories id hid
        simp [cleared, hnone]
      · obtain ⟨job, hjob, hid, hdigest⟩ := ih.sound.stored row hrow
        obtain ⟨after, hafter, hafterId, hartifact⟩ := reconciledAt_stored hjob
        exact ⟨after, hafter, hafterId.trans hid, by rw [hartifact, hdigest]⟩
      · have hqueue : some job ∈ t.queue := hjob
        rw [ih.queue] at hqueue
        cases hqueue
      · obtain ⟨before, hbefore, hid⟩ := reconciledAt_eq_some hjob
        exact hid.trans (ih.keyed id before hbefore)

end Restart

/-! ## The rows of the jobs -/

section Rows

variable {env : ServiceEnv} {start state : State ℕ Shared Point} {s t : Store} {x x' : Shared}
  {point point' : Point} {trace : List (State ℕ Shared Point × ℕ)} {i : ℕ} {job : ScanJob}

/-- What keeps the rows of the store in order. -/
abbrev KeepsStored {ε α : Type} (x : EStateM ε Store α) : Prop :=
  Moves (fun s t : Store => s.host.Keyed → t.host.Keyed) x

lemma stored_refl (s : Store) : s.host.Keyed → s.host.Keyed := id

lemma stored_trans (s t u : Store) (h : s.host.Keyed → t.host.Keyed)
    (h' : t.host.Keyed → u.host.Keyed) : s.host.Keyed → u.host.Keyed := h' ∘ h

lemma removeUpload_keyed (fault : Option Exc) (id : JobId) :
    KeepsStored (removeUpload env fault id) :=
  Moves.bind stored_trans (Moves.raiseIf stored_refl fault) fun _ =>
    Moves.modify fun _ hkeyed => hkeyed

lemma runItem_keyed {wenv : WorkerEnv} (h : KeepRows wenv.late.stages) :
    KeepsRowsBeside (runItem wenv) := by
  have hread (fault : Option Exc) (id : JobId) : KeepsRowsBeside (onHost (getJob fault id)) :=
    rows_onHost <| keepsRows_bind (Moves.raiseIf (fun _ hkeyed => hkeyed) fault) fun _ _ hkeyed =>
      hkeyed
  refine rows_get_bind fun s => rows_tryCatch ?_ fun exc => ?_
  · refine rows_bind (execute_keyed wenv.scan h _) fun _ => ?_
    exact rows_bind (hread _ _) fun _ => rows_pure _
  · refine rows_get_bind fun s => rows_bind (hread _ _) fun stored => ?_
    refine rows_bind (rows_lift _) fun current => ?_
    exact rows_onHost (JobService.save_keyed _ _)

lemma serveJob_keyed (h : KeepRows env.late.stages) (job : ScanJob) :
    KeepsStored (serveJob env job) := by
  intro s
  refine Moves.tryFinally stored_trans (Moves.zoom fun s' => ?_) (removeUpload_keyed _ _) s
  exact runItem_keyed h ⟨job, s'.host⟩

lemma interrupt_keyed (job : ScanJob) : KeepsStored (interrupt env job) := by
  refine Moves.bind stored_trans (Moves.lift stored_refl _) fun job => ?_
  refine Moves.bind stored_trans (Moves.zoom fun s => ?_) fun _ => removeUpload_keyed _ _
  exact JobService.save_keyed _ _ s.host

/-- A call writes the row of a job under its id. -/
lemma Part.keyed {call : Submission} {point point' : CallPoint}
    (h : Part env.submit call s t point point') (hkeyed : s.host.Keyed) : t.host.Keyed := by
  have hsaved (job : ScanJob) : ((issued s.host).saved job).Keyed :=
    Host.Keyed.saved (hkeyed.congr rfl) job
  cases h with
  | arrives held name same => exact same.host ▸ hkeyed
  | turnedAway same fresh => exact same.host ▸ hkeyed
  | repeats answers duplicate same => exact same.host ▸ hkeyed
  | looks key state => exact state ▸ hkeyed
  | prepares artifact_eq state => exact state ▸ hkeyed
  | rejects place same => exact same.host ▸ hkeyed
  | creates jobId status artifact_eq state => exact state ▸ hsaved _
  | uncreated host rest same =>
      rw [same.host]
      obtain hhost | ⟨job, -, hhost⟩ := host
      · exact hhost ▸ hkeyed.congr rfl
      · exact hhost ▸ hsaved job
  | places state => exact state ▸ hkeyed
  | breaks host queue rabJobs incoming directories nextIncoming => exact host ▸ hkeyed
  | answers answers duplicate jobId same => exact same.host ▸ hkeyed
  | unanswered same => exact same.host ▸ hkeyed

lemma advanceWorker_keyed (hkeeps : KeepRows env.late.stages) {point point' : WorkerPoint}
    (h : advanceWorker env i x point = some (x', point')) (hkeyed : x.store.host.Keyed) :
    x'.store.host.Keyed := by
  cases point with
  | waiting =>
      rw [advanceWorker] at h
      split at h
      · cases h
      · obtain ⟨rfl, rfl⟩ := Prod.mk.inj (Option.some.inj h)
        exact hkeyed
      · obtain ⟨rfl, rfl⟩ := Prod.mk.inj (Option.some.inj h)
        exact hkeyed
  | holding job =>
      have hserved := serveJob_keyed hkeeps job x.store hkeyed
      rw [advanceWorker] at h
      split at h
      next t hrun =>
        obtain ⟨rfl, rfl⟩ := Prod.mk.inj (Option.some.inj h)
        rwa [final_of_ok hrun] at hserved
      next exc t hrun =>
        obtain ⟨rfl, rfl⟩ := Prod.mk.inj (Option.some.inj h)
        rwa [final_of_error hrun] at hserved
  | stopped => cases h
  | dead id => cases h

lemma advanceClosing_keyed {point point' : ClosingPoint}
    (h : advanceClosing env x point = some (x', point')) (hkeyed : x.store.host.Keyed) :
    x'.store.host.Keyed := by
  cases point with
  | interrupting job =>
      have hinterrupted := @interrupt_keyed env job x.store hkeyed
      rw [advanceClosing] at h
      split at h
      next t hrun =>
        obtain ⟨rfl, rfl⟩ := Prod.mk.inj (Option.some.inj h)
        rwa [final_of_ok hrun] at hinterrupted
      next exc t hrun =>
        obtain ⟨rfl, rfl⟩ := Prod.mk.inj (Option.some.inj h)
        rwa [final_of_error hrun] at hinterrupted
  | serving =>
      obtain ⟨rfl, rfl⟩ := Prod.mk.inj (Option.some.inj h)
      exact hkeyed
  | draining =>
      rw [advanceClosing] at h
      split at h <;>
      · obtain ⟨rfl, rfl⟩ := Prod.mk.inj (Option.some.inj h)
        exact hkeyed
  | stopping left =>
      cases left with
      | zero =>
          obtain ⟨rfl, rfl⟩ := Prod.mk.inj (Option.some.inj h)
          exact hkeyed
      | succ left =>
          rw [advanceClosing] at h
          split at h
          · obtain ⟨rfl, rfl⟩ := Prod.mk.inj (Option.some.inj h)
            exact hkeyed
          · cases h
  | joining left =>
      cases left with
      | nil =>
          obtain ⟨rfl, rfl⟩ := Prod.mk.inj (Option.some.inj h)
          exact hkeyed
      | cons worker left =>
          rw [advanceClosing] at h
          split at h
          · obtain ⟨rfl, rfl⟩ := Prod.mk.inj (Option.some.inj h)
            exact hkeyed
          · cases h
  | returned => cases h
  | dead id => cases h

/-- A step of any thread keeps the rows in order. -/
lemma advance_keyed (hkeeps : KeepRows env.late.stages) (hsound : x.store.Sound env.submit)
    (hthread : ThreadSound env.submit x point) (h : advance env i x point = some (x', point'))
    (hkeyed : x.store.host.Keyed) : x'.store.host.Keyed := by
  cases point with
  | call submission point =>
      obtain ⟨⟨y, q⟩, hadvance, heq⟩ := Option.map_eq_some_iff.1 h
      obtain ⟨rfl, rfl⟩ := Prod.mk.inj heq
      exact (advanceCall_eq_some hsound hthread.sound hadvance).1.keyed hkeyed
  | worker point =>
      obtain ⟨⟨y, q⟩, hadvance, heq⟩ := Option.map_eq_some_iff.1 h
      obtain ⟨rfl, rfl⟩ := Prod.mk.inj heq
      exact advanceWorker_keyed hkeeps hadvance hkeyed
  | closing point =>
      obtain ⟨⟨y, q⟩, hadvance, heq⟩ := Option.map_eq_some_iff.1 h
      obtain ⟨rfl, rfl⟩ := Prod.mk.inj heq
      exact advanceClosing_keyed hadvance hkeyed

lemma keyed_run (hkeeps : KeepRows env.late.stages) (hsound : ServiceSound env start)
    (hkeyed : start.shared.store.host.Keyed) (hrun : ServiceRun env start trace state) :
    state.shared.store.host.Keyed :=
  (hrun.invariant
    (I := fun state => ServiceSound env state ∧ state.shared.store.host.Keyed)
    (fun hs hstep => ⟨hs.1.step advance_keeps hstep,
      advance_keyed hkeeps hs.1.shared (hs.1.each _) hstep.moves hs.2⟩) ⟨hsound, hkeyed⟩).2

end Rows

/-! ## What is new in a life -/

section Since

variable {env : ServiceEnv} {start state : State ℕ Shared Point} {x x' : Shared}
  {point point' : Point} {s : Store} {trace : List (State ℕ Shared Point × ℕ)} {i : ℕ} {id : JobId}

/-- The jobs that a thread has created or taken from the queue. -/
def Point.knows (point : Point) : Set JobId := {id | .job id ∈ point.owns ∨ .origin id ∈ point.owns}

/-- A thread comes to know a job that it takes from the queue or creates. -/
lemma ServicePart.learns (h : ServicePart env i x x' point point') (hid : id ∈ point'.knows) :
    id ∈ point.knows ∨ id ∈ itemIds x.store.queue ∨ x.store.host.nextJobId ≤ id := by
  cases h with
  | @call submission point point' part ended =>
      -- The lock is not a job, so it does not matter who has it.
      have hgains := part.gains (x := { x with locked := false }) (fun _ => rfl) rfl
      obtain hjob | horigin := hid
      · obtain hown | hnew := hgains _ hjob
        · exact .inl (.inl hown)
        · by_cases hissued : id < x.store.host.nextJobId
          · exact .inr (.inl (by_contra fun hqueue => hnew ⟨hissued, hqueue⟩))
          · exact .inr (.inr (Nat.le_of_not_lt hissued))
      · obtain hown | hnew := hgains _ horigin
        · exact .inl (.inr hown)
        · exact .inr (.inr (Nat.le_of_not_lt hnew))
  | worker part => cases part with
    | takes queue state =>
        obtain hjob | horigin := hid
        · obtain rfl := Resource.job.inj hjob
          exact .inr (.inl (queue ▸ mem_itemIds List.mem_cons_self))
        · cases horigin
    | stops queue state => exact hid.elim False.elim False.elim
    | serves handles finished rest => exact hid.elim False.elim False.elim
    | dies handles rest => exact .inl hid
  | closing part => cases part with
    | takes queue state =>
        obtain hjob | horigin := hid
        · obtain rfl := Resource.job.inj hjob
          exact .inr (.inl (queue ▸ mem_itemIds List.mem_cons_self))
        · cases horigin
    | dies handles rest => exact .inl hid
    | _ => exact hid.elim False.elim False.elim

/-- A state of a process that has begun with a store, and with an empty queue. -/
structure Since (s : Store) (state : State ℕ Shared Point) : Prop where
  rows : s.rabJobs <+: state.shared.store.rabJobs
  nextJobId : s.host.nextJobId ≤ state.shared.store.host.nextJobId
  queue : ∀ id ∈ itemIds state.shared.store.queue, s.host.nextJobId ≤ id
  known : ∀ i, ∀ id ∈ (state.points i).knows, s.host.nextJobId ≤ id

lemma Since.step {state' : State ℕ Shared Point} (hsound : ServiceSound env state)
    (h : Since s state) (hstep : ServiceStep env state i state') : Since s state' := by
  have hpart := advance_part hsound.shared (hsound.each i) hstep.moves
  have hframe := hpart.frame
  refine ⟨h.rows.trans hframe.rows, h.nextJobId.trans hframe.nextJobId, fun id hid => ?_,
    fun j id hid => ?_⟩
  · obtain hqueue | hown := hframe.queue id hid
    · exact h.queue id hqueue
    · exact h.known i id (.inl hown)
  · by_cases hj : j = i
    · subst hj
      obtain hknown | hqueue | hnew := hpart.learns hid
      · exact h.known j id hknown
      · exact h.queue id hqueue
      · exact h.nextJobId.trans hnew
    · rw [hstep.others j hj] at hid
      exact h.known j id hid

lemma Since.run (hsound : ServiceSound env start) (h : Since s start)
    (hrun : ServiceRun env start trace state) : Since s state :=
  (hrun.invariant (I := fun state => ServiceSound env state ∧ Since s state)
    (fun hs hstep => ⟨hs.1.step advance_keeps hstep, hs.2.step hs.1 hstep⟩) ⟨hsound, h⟩).2

lemma Starts.since (hstart : Starts env start) (hqueue : start.shared.store.queue = []) :
    Since start.shared.store start where
  rows := List.prefix_rfl
  nextJobId := le_rfl
  queue id hid := by
    rw [hqueue] at hid
    cases hid
  known i id hid := by
    rw [Point.knows, Point.owns_of_begins (hstart.begins i)] at hid
    exact hid.elim False.elim False.elim

lemma knows_of_handling (h : point.handling = some id) : id ∈ point.knows := by
  refine .inl ?_
  cases point with
  | call submission point => cases h
  | worker point => cases point with
    | holding job => exact congrArg Resource.job (Option.some.inj h).symm
    | _ => cases h
  | closing point => cases point with
    | interrupting job => exact congrArg Resource.job (Option.some.inj h).symm
    | _ => cases h

/-- A job that a life serves is one of its own. -/
lemma served_since (hstart : Starts env start) (hqueue : start.shared.store.queue = [])
    (hrun : ServiceRun env start trace state) (hserved : trace.countP (Serves id) ≠ 0) :
    start.shared.store.host.nextJobId ≤ id ∧ id < state.shared.store.host.nextJobId := by
  obtain ⟨taken, hmem, hserves⟩ := List.countP_pos_iff.1 (Nat.pos_of_ne_zero hserved)
  have hhandling : (taken.1.points taken.2).handling = some id := by simpa [Serves] using hserves
  obtain ⟨before, after, hbefore, hafter⟩ := hrun.split hmem
  have hsince := Since.run hstart.sound (hstart.since hqueue) hbefore
  have hsound := ServiceSound.run hstart hbefore
  obtain ⟨job, rfl, hqueued⟩ := queued_of_handling (hsound.each taken.2) hhandling
  refine ⟨hsince.known taken.2 _ (knows_of_handling hhandling), ?_⟩
  have hgrows := hafter.invariant
    (I := fun state => ServiceSound env state ∧
      job.jobId < state.shared.store.host.nextJobId)
    (fun {u k v} hs hstep => ⟨hs.1.step advance_keeps hstep, hs.2.trans_le
      (advance_part hs.1.shared (hs.1.each k) hstep.moves).frame.nextJobId⟩)
    ⟨hsound, hqueued.issued⟩
  exact hgrows.2

end Since

/-! ## Lives -/

/-- A life of the service: what its process has met, and its run. -/
structure Life where
  env : ServiceEnv
  start : State ℕ Shared Point
  trace : List (State ℕ Shared Point × ℕ)
  state : State ℕ Shared Point

/-- The threads of the process have begun on the store, and have come to where they are. -/
structure Life.Lived (submit : SubmitEnv) (s : Store) (life : Life) : Prop where
  submit_eq : life.env.submit = submit
  store : life.start.shared.store = s
  unlocked : life.start.shared.locked = false
  begins : ∀ i, (life.start.points i).begins = true
  run : ServiceRun life.env life.start life.trace life.state
  /-- The stages write the rows of the jobs that they add under their ids. -/
  stages : KeepRows life.env.late.stages

/-- Some lives, one after the other, and the store that the next process begins on. -/
inductive Lives (submit : SubmitEnv) (first : Store) : List Life → Store → Prop
  | nil {s : Store} (restarted : Restarted first s) : Lives submit first [] s
  | snoc {lives : List Life} {life : Life} {s t : Store} (earlier : Lives submit first lives s)
      (lived : life.Lived submit s) (restarted : Restarted life.state.shared.store t) :
      Lives submit first (lives ++ [life]) t

section Lives

variable {submit : SubmitEnv} {first s t : Store} {lives : List Life} {life later : Life}
  {i j : ℕ}

lemma Life.Lived.starts (h : life.Lived submit s) (hsound : s.Sound submit) :
    Starts life.env life.start :=
  ⟨by rw [h.submit_eq, h.store]; exact hsound, h.unlocked, h.begins⟩

/-- A life has left what the store of a later one has begun with. -/
structure Life.Before (life later : Life) : Prop where
  rows : life.state.shared.store.rabJobs <+: later.start.shared.store.rabJobs
  nextJobId : life.state.shared.store.host.nextJobId ≤ later.start.shared.store.host.nextJobId

/-- A life begins in order. -/
structure Life.InOrder (submit : SubmitEnv) (life : Life) : Prop where
  submit_eq : life.env.submit = submit
  starts : Starts life.env life.start
  queue : life.start.shared.store.queue = []
  run : ServiceRun life.env life.start life.trace life.state

/-- What holds of the store that the next process begins on. -/
structure LivesSound (submit : SubmitEnv) (lives : List Life) (s : Store) : Prop where
  sound : s.Sound submit
  keyed : s.host.Keyed
  queue : s.queue = []
  inOrder : ∀ life ∈ lives, life.InOrder submit
  rows : ∀ life ∈ lives, life.state.shared.store.rabJobs <+: s.rabJobs
  nextJobId : ∀ life ∈ lives,
    life.state.shared.store.host.nextJobId ≤ s.host.nextJobId
  before : lives.Pairwise Life.Before

lemma Lives.sound (hsound : first.Sound submit) (hkeyed : first.host.Keyed)
    (h : Lives submit first lives s) : LivesSound submit lives s := by
  induction h with
  | nil restarted =>
      have hkept := restarted.kept hsound hkeyed
      refine ⟨hkept.sound, hkept.keyed, hkept.queue, fun _ h => ?_, fun _ h => ?_, fun _ h => ?_,
        .nil⟩ <;> cases h
  | @snoc lives life s t _ lived restarted ih =>
      have hstarts := lived.starts ih.sound
      have hqueue : life.start.shared.store.queue = [] := lived.store ▸ ih.queue
      have hsince := Since.run hstarts.sound (hstarts.since hqueue) lived.run
      rw [lived.store] at hsince
      have hend : life.state.shared.store.Sound submit :=
        lived.submit_eq ▸ (ServiceSound.run hstarts lived.run).shared
      have hrows := keyed_run lived.stages hstarts.sound (lived.store ▸ ih.keyed) lived.run
      have hkept := restarted.kept hend hrows
      have hlast {P : Life → Prop} (hbefore : ∀ other ∈ lives, P other) (hlife : P life) :
          ∀ other ∈ lives ++ [life], P other :=
        List.forall_mem_append.2 ⟨hbefore, List.forall_mem_singleton.2 hlife⟩
      refine ⟨hkept.sound, hkept.keyed, hkept.queue,
        hlast ih.inOrder ⟨lived.submit_eq, hstarts, hqueue, lived.run⟩,
        hlast (fun other hother => ?_) (hkept.rows ▸ List.prefix_rfl),
        hlast (fun other hother => ?_) hkept.nextJobId.ge,
        List.pairwise_append.2 ⟨ih.before, List.pairwise_singleton _ _, ?_⟩⟩
      · rw [hkept.rows]
        exact (ih.rows other hother).trans hsince.rows
      · rw [hkept.nextJobId]
        exact (ih.nextJobId other hother).trans hsince.nextJobId
      · intro other hother next hnext
        obtain rfl := List.mem_singleton.1 hnext
        exact ⟨lived.store ▸ ih.rows other hother, lived.store ▸ ih.nextJobId other hother⟩

/-- A call that is answered in a later life is answered for the job that an earlier life has
answered its key for, as a duplicate, and has asked for the same. -/
theorem answered_across_lives (hprofiles : ∀ id, (submit.profiles id).isSome → 0 ∉ id)
    (hsound : first.Sound submit) (hkeyed : first.host.Keyed)
    (hlives : Lives submit first lives s) (horder : [life, later].Sublist lives)
    {call other : Submission} {result result' : AnalysisJobAccepted}
    (hcall : life.state.points i = .call call (.answered result))
    (hother : later.state.points j = .call other (.answered result'))
    (hclient : call.client.clientId = other.client.clientId)
    (hkey : call.idempotencyKey = other.idempotencyKey) (hapart : TellsApart submit call other) :
    result.jobId = result'.jobId ∧ result.objectSha256 = result'.objectSha256 ∧
      result.profile = result'.profile ∧ SameRequest submit call other ∧
      result'.duplicate = true := by
  have hall := hlives.sound hsound hkeyed
  have hlife := hall.inOrder life (horder.subset List.mem_cons_self)
  have hlater := hall.inOrder later (horder.subset (by simp))
  have hbefore : life.Before later :=
    List.rel_of_pairwise_cons (hall.before.sublist horder) (List.mem_singleton_self later)
  have hend := ServiceSound.run hlife.starts hlife.run
  have hend' := ServiceSound.run hlater.starts hlater.run
  have hsince := Since.run hlater.starts.sound (hlater.starts.since hlater.queue) hlater.run
  obtain ⟨profile, content, identity, row, hrow⟩ := hend.answers hcall
  obtain ⟨profile', content', identity', row', hrow'⟩ := hend'.answers hother
  have hstored : row ∈ later.state.shared.store.rabJobs :=
    (hbefore.rows.trans hsince.rows).subset hrow.mem
  rw [hlife.submit_eq] at hrow
  rw [hlater.submit_eq] at hrow'
  obtain ⟨hjob, hdigest, hprofile, hrequest⟩ :=
    hrow.agree hrow' (hlater.submit_eq ▸ hend'.shared) hstored hrow'.mem hclient hkey hprofiles
      hapart
  refine ⟨hjob, hdigest, hprofile, hrequest, ?_⟩
  by_contra hnew
  have hknown : result'.jobId ∈ (later.state.points j).knows := by
    rw [hother]
    exact .inr ⟨by simpa using hnew, rfl⟩
  -- A job that a life has created is not in the rows of the lives before.
  have hissued : row.jobId < life.state.shared.store.host.nextJobId :=
    hend.shared.issued row hrow.mem
  have hnext := hsince.known j _ hknown
  rw [← hjob, hrow.jobId] at hnext
  exact absurd hissued (Nat.not_lt.2 (hbefore.nextJobId.trans hnext))

/-- No job is served twice, in all lives together. -/
theorem served_once_ever (hsound : first.Sound submit) (hkeyed : first.host.Keyed)
    (hlives : Lives submit first lives s) (id : JobId) :
    (lives.map fun life => life.trace.countP (Serves id)).sum ≤ 1 := by
  suffices h : (lives.map fun life => life.trace.countP (Serves id)).sum ≤ 1 ∧
      ((lives.map fun life => life.trace.countP (Serves id)).sum ≠ 0 → id < s.host.nextJobId) from
    h.1
  induction hlives with
  | nil restarted => simp
  | @snoc lives life s t earlier lived restarted ih =>
      obtain ⟨hcount, hserved⟩ := ih
      have hall := (earlier.snoc lived restarted).sound hsound hkeyed
      have hmem : life ∈ lives ++ [life] := List.mem_append_right _ (List.mem_singleton_self life)
      have hlife := hall.inOrder life hmem
      have honce := served_once hlife.starts hlife.run id
      have hsince (hserves : life.trace.countP (Serves id) ≠ 0) :=
        served_since hlife.starts hlife.queue hlife.run hserves
      have hissued := hall.nextJobId life hmem
      have hgrows := (Since.run hlife.starts.sound (hlife.starts.since hlife.queue)
        hlife.run).nextJobId
      rw [lived.store] at hsince hgrows
      simp only [List.map_append, List.map_cons, List.map_nil, List.sum_append, List.sum_cons,
        List.sum_nil, Nat.add_zero]
      -- What an earlier life has served is not new in this one.
      by_cases hzero : life.trace.countP (Serves id) = 0
      · rw [hzero, Nat.add_zero]
        exact ⟨hcount, fun h => (hserved h).trans_le (hgrows.trans hissued)⟩
      · obtain ⟨hnew, hid⟩ := hsince hzero
        refine ⟨?_, fun _ => hid.trans_le hissued⟩
        by_contra hmore
        exact absurd (hserved (by omega)) (Nat.not_lt.2 hnew)

end Lives

/-! ## Two lives -/

/-- A thread that makes a call goes on making it. -/
lemma caller_run {env : ServiceEnv} {start state : State ℕ Shared Point}
    {trace : List (State ℕ Shared Point × ℕ)} {call : Submission} {i : ℕ}
    (hsound : ServiceSound env start) (hcall : ∃ point, start.points i = .call call point)
    (hrun : ServiceRun env start trace state) : ∃ point, state.points i = .call call point := by
  refine (hrun.invariant (I := fun state => ServiceSound env state ∧
    ∃ point, state.points i = .call call point) (fun {s k t} hs hstep => ?_) ⟨hsound, hcall⟩).2
  obtain ⟨hsound, point, hpoint⟩ := hs
  refine ⟨hsound.step advance_keeps hstep, ?_⟩
  by_cases hik : i = k
  · subst hik
    have hpart := advance_part hsound.shared (hsound.each i) hstep.moves
    generalize t.points i = point' at hpart ⊢
    rw [hpoint] at hpart
    cases hpart with
    | @call _ _ point' part ended => exact ⟨point', rfl⟩
  · exact ⟨point, (hstep.others i hik).trans hpoint⟩

lemma answered_of_isSome {call : Submission} {point : Point}
    (hcall : ∃ callPoint, point = .call call callPoint) (h : point.answer.isSome = true) :
    ∃ result, point = .call call (.answered result) := by
  obtain ⟨callPoint, rfl⟩ := hcall
  cases callPoint with
  | answered result => exact ⟨result, rfl⟩
  | _ => cases h

/-- One thread makes a call, and the others are workers, on a store that is there. -/
def callOn (s : Store) : State ℕ Shared Point := { callAndWorkers with shared.store := s }

/-- A life of such threads that take steps as told. -/
lemma call_lived {s : Store} {steps : List ℕ} {state : State ℕ Shared Point}
    (hsound : s.Sound plainService)
    (hstate : follow (advance plainServiceEnv) steps (callOn s) = state) :
    ∃ trace, Life.Lived plainService s ⟨plainServiceEnv, callOn s, trace, state⟩ ∧
      ∃ point, state.points 0 = .call (plainCall fun _ => none) point := by
  obtain ⟨trace, hrun, -⟩ := run_follow (advance plainServiceEnv) steps (callOn s)
  rw [hstate] at hrun
  have hstarts : Starts plainServiceEnv (callOn s) := ⟨hsound, rfl, callAndWorkers_starts.begins⟩
  have hstages : KeepRows plainServiceEnv.late.stages :=
    ⟨fun _ h => (by cases h), fun _ h => by cases h⟩
  exact ⟨trace, ⟨rfl, rfl, rfl, callAndWorkers_starts.begins, hrun, hstages⟩,
    caller_run hstarts.sound ⟨_, rfl⟩ hrun⟩

lemma emptyStore_keyed : emptyStore.host.Keyed := fun _ _ h => by cases h

/-- Two lives of such threads, and a construction between them. -/
lemma twoLives {steps steps' : List ℕ} {state state' : State ℕ Shared Point} {next : Store}
    (hstate : follow (advance plainServiceEnv) steps (callOn emptyStore) = state)
    (hnext : final (restart plainServiceEnv plainRestart)
      { state.shared.store with queue := [] } = next)
    (hstate' : follow (advance plainServiceEnv) steps' (callOn next) = state') :
    ∃ life later store, Lives plainService emptyStore [life, later] store ∧
      life.state = state ∧ later.state = state' ∧
      (∃ point, state.points 0 = .call (plainCall fun _ => none) point) ∧
      ∃ point, state'.points 0 = .call (plainCall fun _ => none) point := by
  obtain ⟨trace, hlived, hcall⟩ := call_lived emptyStore_sound hstate
  have hrestarted : Restarted state.shared.store next :=
    hnext ▸ .built plainServiceEnv plainRestart .quit
  have hlives : Lives plainService emptyStore
      [⟨plainServiceEnv, callOn emptyStore, trace, state⟩] next :=
    (Lives.nil .quit).snoc hlived hrestarted
  have hsound := hlives.sound emptyStore_sound emptyStore_keyed
  obtain ⟨trace', hlived', hcall'⟩ := call_lived hsound.sound hstate'
  exact ⟨_, _, _, hlives.snoc hlived' .quit, rfl, rfl, hcall, hcall'⟩

/-- A call has been answered, and a worker has served its job. -/
def servedState : State ℕ Shared Point :=
  follow (advance plainServiceEnv) [0, 0, 0, 0, 0, 0, 1, 1] (callOn emptyStore)

/-- What the next process begins on. -/
def nextStore : Store :=
  final (restart plainServiceEnv plainRestart) { servedState.shared.store with queue := [] }

/-- The key is used again. -/
def repeatedState : State ℕ Shared Point :=
  follow (advance plainServiceEnv) [0, 0] (callOn nextStore)

/-- The second life answers the call for the job of the first. -/
theorem repeated_across_lives :
    ∃ life later store result result', Lives plainService emptyStore [life, later] store ∧
      life.state.points 0 = .call (plainCall fun _ => none) (.answered result) ∧
      later.state.points 0 = .call (plainCall fun _ => none) (.answered result') ∧
      result.jobId = result'.jobId ∧ result'.duplicate = true := by
  have hserved : (servedState.points 0).answer.isSome = true := by decide +kernel
  have hrepeated : (repeatedState.points 0).answer.isSome = true := by decide +kernel
  obtain ⟨life, later, store, hlives, hlife, hlater, hcall, hcall'⟩ :=
    twoLives servedState.eq_def.symm nextStore.eq_def.symm repeatedState.eq_def.symm
  obtain ⟨result, hresult⟩ := answered_of_isSome hcall hserved
  obtain ⟨result', hresult'⟩ := answered_of_isSome hcall' hrepeated
  rw [← hlife] at hresult
  rw [← hlater] at hresult'
  obtain ⟨hjob, -, -, -, hduplicate⟩ := answered_across_lives (fun _ => plainService_profiles)
    emptyStore_sound emptyStore_keyed hlives (List.Sublist.refl _) hresult hresult' rfl rfl
    (tellsApart_self _ _)
  exact ⟨life, later, store, result, result', hlives, hresult, hresult', hjob, hduplicate⟩

/-- The job that the first life has served is not served again. -/
theorem twoLives_served_once :
    ∃ life later store, Lives plainService emptyStore [life, later] store ∧
      life.state = servedState ∧
      life.trace.countP (Serves 0) + later.trace.countP (Serves 0) ≤ 1 := by
  obtain ⟨life, later, store, hlives, hlife, -⟩ :=
    twoLives servedState.eq_def.symm nextStore.eq_def.symm repeatedState.eq_def.symm
  have honce := served_once_ever emptyStore_sound emptyStore_keyed hlives 0
  exact ⟨life, later, store, hlives, hlife, by simpa using honce⟩

end RABService

end AVBox
