import AVBox.Protocol.Concurrency

/-!
# The jobs that have been accepted

A job that a call has put into the queue is not lost: it is in the queue until a worker or
`shutdown` takes it, and then in the hands of that thread until it is over
(`accepted_accounted`).  Nor is it served again: no thread takes it a second time (`served_once`).

A thread that an exception has ended keeps the job that it had taken, which may be in any status.
-/

namespace AVBox

open Program Threads

namespace RABService

/-! ## Where a job can be -/

/-- The job that a call has put into the queue. -/
def Point.placed : Point → Set JobId
  | .call _ (.stored _ id) => {id}
  | .call _ (.answered answer) => {id | answer.duplicate = false ∧ id = answer.jobId}
  | .call _ (.unanswered id _) => {id}
  | _ => ∅

/-- The job that a thread has in its hands. -/
def Point.handling : Point → Option JobId
  | .worker (.holding job) => some job.jobId
  | .closing (.interrupting job) => some job.jobId
  | _ => none

/-- The job that a thread has left behind. -/
def Point.left : Point → Option JobId
  | .worker (.dead id) => some id
  | .closing (.dead id) => some id
  | _ => none

/-- The job that a thread has taken from the queue and not brought to its end. -/
def Point.serves (point : Point) : Set JobId :=
  {id | point.handling = some id ∨ point.left = some id}

/-- The job is over, and stays so. -/
def Settled (x : Shared) (id : JobId) : Prop := id < x.store.host.nextJobId ∧ x.store.Over id

/-- The job is in the queue or over. -/
def AtRest (x : Shared) (id : JobId) : Prop := id ∈ itemIds x.store.queue ∨ Settled x id

section Steps

variable {env : ServiceEnv} {s t : Store} {own : Set Resource} {x x' : Shared}
  {point point' : Point} {i : ℕ} {id : JobId} {job : ScanJob}

lemma Point.job_mem_owns (h : id ∈ point.serves) : .job id ∈ point.owns := by
  cases point with
  | call submission point => obtain h | h := h <;> cases h
  | worker point =>
      cases point with
      | holding job =>
          obtain h | h := h
          · exact congrArg Resource.job (Option.some.inj h).symm
          · cases h
      | dead id =>
          obtain h | h := h
          · cases h
          · exact congrArg Resource.job (Option.some.inj h).symm
      | waiting => obtain h | h := h <;> cases h
      | stopped => obtain h | h := h <;> cases h
  | closing point =>
      cases point with
      | interrupting job =>
          obtain h | h := h
          · exact congrArg Resource.job (Option.some.inj h).symm
          · cases h
      | dead id =>
          obtain h | h := h
          · cases h
          · exact congrArg Resource.job (Option.some.inj h).symm
      | _ => obtain h | h := h <;> cases h

/-- A job that has not been started is not over. -/
lemma Queued.not_over (h : Queued s.host job) : ¬s.Over job.jobId := by
  rintro ⟨⟨stored, hrow, -, hstatus⟩, -⟩
  rw [h.row] at hrow
  obtain rfl := Option.some.inj hrow
  rw [h.status] at hstatus
  simp [terminalStatuses] at hstatus

lemma Store.Frame.stays_over (h : Store.Frame own s t) (hid : id < s.host.nextJobId)
    (hown : .job id ∉ own) (hover : s.Over id) : t.Over id := by
  obtain ⟨⟨stored, hrow, hstored⟩, hupload⟩ := hover
  refine ⟨⟨stored, (h.jobs id hid hown).trans hrow, hstored⟩, ?_⟩
  rwa [Store.upload, h.directories id hid hown]

lemma frame_sentinel : Store.Frame own s { s with queue := s.queue ++ [none] } :=
  ⟨le_rfl, fun _ _ _ => rfl, fun _ _ _ => rfl, le_rfl, fun _ _ _ => rfl, List.prefix_rfl,
    fun _ => rfl, fun _ hid => .inl (itemIds_sentinel s.queue ▸ hid)⟩

/-- What a step of any thread leaves to the others. -/
lemma ServicePart.frame (h : ServicePart env i x x' point point') :
    Store.Frame point.owns x.store x'.store := by
  cases h with
  | call part ended => exact part.frame
  | worker part => cases part with
    | takes queue state => exact state ▸ frame_queue queue
    | stops queue state => exact state ▸ frame_queue queue
    | serves handles finished rest => exact handles.frame
    | dies handles rest => exact handles.frame
  | closing part => cases part with
    | begins state => exact state ▸ .refl _ _
    | takes queue state => exact state ▸ frame_queue queue
    | skips queue state => exact state ▸ frame_queue queue
    | drained queue state => exact state ▸ .refl _ _
    | interrupts handles finished rest => exact handles.frame
    | dies handles rest => exact handles.frame
    | puts state => exact state ▸ frame_sentinel
    | stopped state => exact state ▸ .refl _ _
    | joins ended state => exact state ▸ .refl _ _
    | returns state => exact state ▸ .refl _ _

/-- A thread that can go on has a job that has not been started, or none. -/
lemma ServicePart.queued (h : ServicePart env i x x' point point')
    (hthread : ThreadSound env.submit x point) (hown : .job id ∈ point.owns) :
    ∃ job : ScanJob, job.jobId = id ∧ Queued x.store.host job := by
  have hsound := hthread.sound
  cases h with
  | @call submission point point' part ended =>
      have hcreated {upload : Upload} {job : ScanJob} (hpoint : point = .created upload job) :
          ∃ job : ScanJob, job.jobId = id ∧ Queued x.store.host job := by
        subst hpoint
        obtain h | h | h | h := hown
        · cases h
        · cases h
        · exact ⟨job, (Resource.job.inj h).symm, hsound.2.2.queued⟩
        · cases h
      cases part with
      | places state => exact hcreated rfl
      | breaks host queue rabJobs incoming directories nextIncoming => exact hcreated rfl
      | arrives held name same => exact hown.elim
      | turnedAway same fresh => exact hown.elim
      | rejects place same =>
          obtain rfl | rfl := place
          · cases hown
          · obtain h | h := hown <;> cases h
      | repeats answers duplicate same => cases hown
      | looks key state => cases hown
      | _ => obtain h | h := hown <;> cases h
  | worker part => cases part with
    | takes queue state => exact hown.elim
    | stops queue state => exact hown.elim
    | _ => exact ⟨_, (Resource.job.inj hown).symm, Taken.queued hsound⟩
  | closing part => cases part with
    | interrupts handles finished rest =>
        exact ⟨_, (Resource.job.inj hown).symm, Taken.queued hsound⟩
    | dies handles rest => exact ⟨_, (Resource.job.inj hown).symm, Taken.queued hsound⟩
    | _ => exact hown.elim

/-- What is over stays over. -/
lemma Settled.step (h : ServicePart env i x x' point point')
    (hthread : ThreadSound env.submit x point) (hsettled : Settled x id) : Settled x' id := by
  obtain ⟨hissued, hover⟩ := hsettled
  refine ⟨hissued.trans_le h.frame.nextJobId, h.frame.stays_over hissued (fun hown => ?_) hover⟩
  obtain ⟨job, rfl, hqueued⟩ := h.queued hthread hown
  exact hqueued.not_over hover

lemma queued_of_handling (hthread : ThreadSound env.submit x point)
    (h : point.handling = some id) : ∃ job : ScanJob, job.jobId = id ∧ Queued x.store.host job := by
  have hsound := hthread.sound
  cases point with
  | call submission point => cases h
  | worker point => cases point with
    | holding job => exact ⟨job, Option.some.inj h, Taken.queued hsound⟩
    | _ => cases h
  | closing point => cases point with
    | interrupting job => exact ⟨job, Option.some.inj h, Taken.queued hsound⟩
    | _ => cases h

/-- A thread that has a job in its hands has it over or leaves it behind. -/
lemma ServicePart.handled (h : ServicePart env i x x' point point')
    (hthread : ThreadSound env.submit x point) (hhandling : point.handling = some id) :
    Settled x' id ∨ point'.left = some id := by
  have hsettled {job : ScanJob} (htaken : Taken env.submit job x.store)
      (hhandles : Handles job x.store x'.store) (hover : x'.store.Over job.jobId)
      (hid : some job.jobId = some id) : Settled x' id := by
    obtain rfl := Option.some.inj hid
    exact ⟨Nat.lt_of_lt_of_le htaken.queued.issued hhandles.nextJobId, hover⟩
  cases h with
  | call part ended => cases hhandling
  | worker part => cases part with
    | takes queue state => cases hhandling
    | stops queue state => cases hhandling
    | serves handles finished rest => exact .inl (hsettled hthread.sound handles finished hhandling)
    | dies handles rest => exact .inr hhandling
  | closing part => cases part with
    | interrupts handles finished rest =>
        exact .inl (hsettled hthread.sound handles finished hhandling)
    | dies handles rest => exact .inr hhandling
    | _ => cases hhandling

/-- A thread that has left a job behind has ended. -/
lemma ServicePart.left_eq_none (h : ServicePart env i x x' point point') : point.left = none := by
  cases h with
  | call part ended => rfl
  | worker part => cases part <;> rfl
  | closing part => cases part <;> rfl

lemma mem_itemIds_cons {item : Option ScanJob} {items : List (Option ScanJob)} :
    id ∈ itemIds (item :: items) ↔ item.map (·.jobId) = some id ∨ id ∈ itemIds items := by
  cases item with
  | none => simp [itemIds]
  | some job => simp [itemIds, eq_comm]

/-- A call leaves what is in the queue there. -/
lemma Part.queue_mem {call : Submission} {point point' : CallPoint}
    (h : Part env.submit call s t point point') (hid : id ∈ itemIds s.queue) :
    id ∈ itemIds t.queue := by
  cases h with
  | arrives held name same => rwa [same.queue]
  | turnedAway same fresh => rwa [same.queue]
  | repeats answers duplicate same => rwa [same.queue]
  | looks key state => rwa [state]
  | prepares artifact_eq state => rwa [state]
  | rejects place same => rwa [same.queue]
  | creates jobId status artifact_eq state => rwa [state]
  | uncreated host rest same =>
      rw [rest] at same
      rwa [same.queue]
  | places state =>
      rw [state, itemIds_append]
      exact List.mem_append_left _ hid
  | breaks host queue rabJobs incoming directories nextIncoming => rwa [queue]
  | answers answers duplicate jobId same => rwa [same.queue]
  | unanswered same => rwa [same.queue]

/-- A job in the queue stays there, or a thread takes it. -/
lemma ServicePart.queue_accounts (h : ServicePart env i x x' point point')
    (hid : id ∈ itemIds x.store.queue) :
    id ∈ itemIds x'.store.queue ∨ point'.handling = some id := by
  have htaken {item : Option ScanJob} {items : List (Option ScanJob)}
      (hqueue : x.store.queue = item :: items) :
      item.map (·.jobId) = some id ∨ id ∈ itemIds items := by
    rw [hqueue] at hid
    exact mem_itemIds_cons.1 hid
  cases h with
  | call part ended => exact .inl (part.queue_mem hid)
  | worker part => cases part with
    | takes queue state => exact state ▸ (htaken queue).symm
    | stops queue state => exact state ▸ .inl ((htaken queue).resolve_left fun h => by cases h)
    | serves handles finished rest => exact .inl (handles.queue ▸ hid)
    | dies handles rest => exact .inl (handles.queue ▸ hid)
  | closing part => cases part with
    | begins state => exact .inl (state ▸ hid)
    | takes queue state => exact state ▸ (htaken queue).symm
    | skips queue state => exact state ▸ .inl ((htaken queue).resolve_left fun h => by cases h)
    | drained queue state => exact .inl (state ▸ hid)
    | interrupts handles finished rest => exact .inl (handles.queue ▸ hid)
    | dies handles rest => exact .inl (handles.queue ▸ hid)
    | puts state => exact .inl (state ▸ (itemIds_sentinel x.store.queue).symm ▸ hid)
    | stopped state => exact .inl (state ▸ hid)
    | joins ended state => exact .inl (state ▸ hid)
    | returns state => exact .inl (state ▸ hid)

/-- A job that is somewhere stays somewhere. -/
lemma ServicePart.accounts (h : ServicePart env i x x' point point')
    (hthread : ThreadSound env.submit x point) (hplace : AtRest x id ∨ id ∈ point.serves) :
    AtRest x' id ∨ id ∈ point'.serves := by
  obtain (hqueue | hsettled) | hhandling | hleft := hplace
  · exact (h.queue_accounts hqueue).imp .inl .inl
  · exact .inl (.inr (hsettled.step h hthread))
  · exact (h.handled hthread hhandling).imp .inr .inr
  · cases h.left_eq_none.symm.trans hleft

/-- A job that a call places comes behind all that is in the queue. -/
lemma ServicePart.placed (h : ServicePart env i x x' point point') (hplaced : id ∈ point'.placed) :
    id ∈ point.placed ∨ ∃ job : ScanJob, job.jobId = id ∧
      x'.store.queue = x.store.queue ++ [some job] := by
  cases h with
  | call part ended => cases part with
    | @places upload job state =>
        exact .inr ⟨job, (Set.mem_singleton_iff.1 hplaced).symm, by rw [state]⟩
    | repeats answers duplicate same => cases duplicate.symm.trans hplaced.1
    | answers answers duplicate jobId same =>
        obtain ⟨-, rfl⟩ := hplaced
        exact .inl jobId
    | unanswered same => exact .inl hplaced
    | _ => exact hplaced.elim
  | worker part => exact hplaced.elim
  | closing part => exact hplaced.elim

end Steps

/-! ## Whole runs -/

section Runs

variable {env : ServiceEnv} {start state : State ℕ Shared Point}
  {trace : List (State ℕ Shared Point × ℕ)} {i j : ℕ} {id : JobId}

/-- The jobs that calls have placed are accounted for. -/
lemma placed_accounted (hstart : Starts env start) (hrun : ServiceRun env start trace state)
    (hplaced : id ∈ (state.points i).placed) : Accounted AtRest Point.serves state id := by
  refine (hrun.invariant (I := fun s => ServiceSound env s ∧
    ∀ i id, id ∈ (s.points i).placed → Accounted AtRest Point.serves s id)
    (fun {s k t} hs hstep => ?_) ⟨hstart.sound, fun i id hplaced => ?_⟩).2 i id hplaced
  · obtain ⟨hsound, haccounted⟩ := hs
    have hpart := advance_part hsound.shared (hsound.each k) hstep.moves
    refine ⟨hsound.step advance_keeps hstep, fun i id hplaced => ?_⟩
    have haccounts := fun h : Accounted AtRest Point.serves s id =>
      h.step (hpart.accounts (hsound.each k)) hstep
    by_cases hik : i = k
    · subst hik
      obtain hbefore | ⟨job, rfl, hqueue⟩ := hpart.placed hplaced
      · exact haccounts (haccounted i id hbefore)
      · refine .inl (.inl ?_)
        rw [hqueue, itemIds_append]
        exact List.mem_append_right _ (List.mem_singleton_self _)
    · rw [hstep.others i hik] at hplaced
      exact haccounts (haccounted i id hplaced)
  · obtain ⟨call, hpoint⟩ | hpoint | hpoint := Point.begins_iff.1 (hstart.begins i) <;>
      rw [hpoint] at hplaced <;> exact hplaced.elim

/-- A job that a call has placed is not lost: it is in the queue, over, or with one thread.  While
it is in the queue no thread has it, and while a thread has it in its hands it is not over. -/
theorem accepted_accounted (hstart : Starts env start) (hrun : ServiceRun env start trace state)
    (hplaced : id ∈ (state.points i).placed) :
    (id ∈ itemIds state.shared.store.queue ∨ state.shared.store.Over id ∨
        ∃ j, id ∈ (state.points j).serves) ∧
      (id ∈ itemIds state.shared.store.queue → (itemIds state.shared.store.queue).count id = 1 ∧
        ¬state.shared.store.Over id ∧ ∀ j, id ∉ (state.points j).serves) ∧
      (∀ j, (state.points j).handling = some id → ¬state.shared.store.Over id) ∧
      ∀ j k, id ∈ (state.points j).serves → id ∈ (state.points k).serves → j = k := by
  have hsound := ServiceSound.run hstart hrun
  have howns {j : ℕ} (h : id ∈ (state.points j).serves) : .job id ∈ (state.points j).owns :=
    Point.job_mem_owns h
  refine ⟨?_, fun hqueue => ⟨List.count_eq_one_of_mem hsound.shared.distinct hqueue, ?_, ?_⟩, ?_,
    fun j k hj hk => hsound.owner_unique (howns hj) (howns hk)⟩
  · obtain (hqueue | hsettled) | hserves := placed_accounted hstart hrun hplaced
    · exact .inl hqueue
    · exact .inr (.inl hsettled.2)
    · exact .inr (.inr hserves)
  · obtain ⟨job, hjob, rfl⟩ := exists_of_mem_itemIds hqueue
    exact (hsound.shared.queued job hjob).1.not_over
  · intro j hserves
    exact ((hsound.each j).taken hsound.shared _ (howns hserves)).2 hqueue
  · intro j hhandling
    obtain ⟨job, rfl, hqueued⟩ := queued_of_handling (hsound.each j) hhandling
    exact hqueued.not_over

/-- A step that ends with a job over, or left behind. -/
def Serves (id : JobId) (taken : State ℕ Shared Point × ℕ) : Bool :=
  (taken.1.points taken.2).handling = some id

/-- No job is served twice, by whatever threads. -/
theorem served_once (hstart : Starts env start) (hrun : ServiceRun env start trace state)
    (id : JobId) : trace.countP (Serves id) ≤ 1 := by
  suffices h : ServiceSound env state ∧ (trace.countP (Serves id) = 0 ∨
      trace.countP (Serves id) = 1 ∧
        (Settled state.shared id ∨ ∃ j, (state.points j).left = some id)) by
    obtain h | h := h.2 <;> omega
  induction hrun with
  | nil => exact ⟨hstart.sound, .inl rfl⟩
  | @snoc trace s t k run hstep ih =>
      obtain ⟨hsound, hcount⟩ := ih
      refine ⟨hsound.step advance_keeps hstep, ?_⟩
      have hthread := hsound.each k
      have hpart := advance_part hsound.shared hthread hstep.moves
      rw [List.countP_append, List.countP_singleton]
      by_cases hserves : (s.points k).handling = some id
      · have hzero : trace.countP (Serves id) = 0 := by
          refine hcount.resolve_right fun h => ?_
          obtain ⟨-, hsettled | ⟨j, hleft⟩⟩ := h
          · obtain ⟨job, rfl, hqueued⟩ := queued_of_handling hthread hserves
            exact hqueued.not_over hsettled.2
          · obtain rfl := hsound.owner_unique (Point.job_mem_owns (.inr hleft))
              (Point.job_mem_owns (.inl hserves))
            cases hpart.left_eq_none.symm.trans hleft
        have hdone := hpart.handled hthread hserves
        exact .inr ⟨by simp [hzero, Serves, hserves], hdone.imp_right fun h => ⟨k, h⟩⟩
      · have hsame : Serves id (s, k) = false := decide_eq_false hserves
        rw [hsame]
        refine hcount.imp_right fun h => ⟨h.1, ?_⟩
        obtain ⟨-, hsettled | ⟨j, hleft⟩⟩ := h
        · exact .inl (hsettled.step hpart hthread)
        · by_cases hjk : j = k
          · subst hjk
            cases hpart.left_eq_none.symm.trans hleft
          · exact .inr ⟨j, (hstep.others j hjk).symm ▸ hleft⟩

end Runs

/-! ## A call and a worker -/

/-- One thread makes a call, and the others are workers. -/
def callAndWorkers : State ℕ Shared Point where
  shared := ⟨emptyStore, false, fun _ => false⟩
  points := fun i => if i = 0 then .call (plainCall fun _ => none) .started else .worker .waiting

lemma callAndWorkers_starts : Starts plainServiceEnv callAndWorkers where
  store := emptyStore_sound
  unlocked := rfl
  begins i := by
    by_cases hi : i = 0 <;> simp [callAndWorkers, Point.begins, hi]

/-- The job of a call that has been answered waits for a worker. -/
theorem waiting_accounted :
    let state := follow (advance plainServiceEnv) [0, 0, 0, 0, 0, 0] callAndWorkers
    0 ∈ (state.points 0).placed ∧ ¬state.shared.store.Over 0 := by
  intro state
  obtain ⟨trace, hrun, -⟩ := run_follow (advance plainServiceEnv)
    [0, 0, 0, 0, 0, 0] callAndWorkers
  have hplaced : 0 ∈ (state.points 0).placed := ⟨rfl, rfl⟩
  have hqueue : 0 ∈ itemIds state.shared.store.queue := by decide
  exact ⟨hplaced,
    ((accepted_accounted callAndWorkers_starts hrun hplaced).2.1 hqueue).2.1⟩

/-- The worker that serves it is the only one. -/
theorem worker_served_once :
    ∃ trace, ServiceRun plainServiceEnv callAndWorkers trace
      (follow (advance plainServiceEnv) [0, 0, 0, 0, 0, 0, 1, 1, 2] callAndWorkers) ∧
        trace.countP (Serves 0) ≤ 1 := by
  obtain ⟨trace, hrun, -⟩ := run_follow (advance plainServiceEnv)
    [0, 0, 0, 0, 0, 0, 1, 1, 2] callAndWorkers
  exact ⟨trace, hrun, served_once callAndWorkers_starts hrun 0⟩

end RABService

end AVBox
