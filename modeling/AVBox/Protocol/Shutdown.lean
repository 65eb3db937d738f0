import AVBox.Protocol.Served

/-!
# Shutting the service down

`shutdown` empties the queue, puts one sentinel behind it for each worker, and joins the workers.
Calls are not kept from placing jobs in the meantime.

`accepted_over_iff` says which of them are over when it returns: those that were placed while it
had still a sentinel to put.  What comes behind the last sentinel is never taken.
`shutdown_returns` says that nothing keeps it waiting for ever: the workers and `shutdown` come to
an end if the calls do, and there is no deadlock in which `shutdown` has not returned.

Both rest on `Balanced`, which counts the sentinels: each is still to be put, in the queue, or with
the worker that it has stopped.
-/

namespace AVBox

open Program Threads Transitions

namespace RABService

/-! ## The threads of a service -/

inductive Role
  | call
  | worker
  | closing
  deriving DecidableEq

def Point.role : Point → Role
  | .call _ _ => .call
  | .worker _ => .worker
  | .closing _ => .closing

/-- A service that has come up: its workers run, and one thread is to shut it down. -/
structure Deploys (env : ServiceEnv) (closer : ℕ) (start : State ℕ Shared Point) : Prop where
  starts : Starts env start
  distinct : env.workers.Nodup
  workers : ∀ i, (start.points i).role = .worker ↔ i ∈ env.workers
  closing : ∀ i, (start.points i).role = .closing ↔ i = closer
  alive : ∀ i ∈ env.workers, start.shared.ended i = false
  sentinels : none ∉ start.shared.store.queue

/-! ## The sentinels -/

def sentinels (items : List (Option ScanJob)) : ℕ := items.countP Option.isNone

/-- A worker that has taken a sentinel. -/
def Point.stopped : Point → Bool
  | .worker .stopped => true
  | _ => false

/-- A worker whose thread is over. -/
def Point.ended : Point → Bool
  | .worker .stopped | .worker (.dead _) => true
  | _ => false

/-- The sentinels that a thread is still to put. -/
def Point.toPut (env : ServiceEnv) : Point → ℕ
  | .closing (.stopping left) => left
  | .closing (.joining _) | .closing .returned => 0
  | .closing _ => env.workers.length
  | _ => 0

/-- The workers that a thread is still to join. -/
def Point.toJoin (env : ServiceEnv) : Point → List ℕ
  | .closing (.joining left) => left
  | .closing .returned => []
  | .closing _ => env.workers
  | _ => []

/-- Whether the last sentinel has been put. -/
def Point.closed : Point → Bool
  | .closing (.stopping 0) | .closing (.joining _) | .closing .returned => true
  | _ => false

section Sentinels

variable {env : ServiceEnv} {s t : Store} {x x' : Shared} {point point' : Point} {i : ℕ}
  {id : JobId} {item : Option ScanJob} {items : List (Option ScanJob)}

@[simp] lemma sentinels_nil : sentinels [] = 0 := rfl

@[simp] lemma sentinels_cons :
    sentinels (item :: items) = sentinels items + item.isNone.toNat := by
  cases item <;> simp [sentinels]

@[simp] lemma sentinels_append (items' : List (Option ScanJob)) :
    sentinels (items ++ items') = sentinels items + sentinels items' := by
  simp [sentinels]

lemma sentinels_eq_zero : sentinels items = 0 ↔ none ∉ items := by
  rw [sentinels, List.countP_eq_zero]
  refine ⟨fun h hnone => h none hnone rfl, fun h item hitem hnone => h ?_⟩
  rwa [← Option.isNone_iff_eq_none.1 hnone]

/-- A call puts one job into the queue at most. -/
lemma Part.queue {call : Submission} {point point' : CallPoint}
    (h : Part env.submit call s t point point') :
    t.queue = s.queue ∨ ∃ job : ScanJob, t.queue = s.queue ++ [some job] := by
  cases h with
  | arrives held name same => exact .inl same.queue
  | turnedAway same fresh => exact .inl same.queue
  | repeats answers duplicate same => exact .inl same.queue
  | looks key state => exact .inl (by rw [state])
  | prepares artifact_eq state => exact .inl (by rw [state])
  | rejects place same => exact .inl same.queue
  | creates jobId status artifact_eq state => exact .inl (by rw [state])
  | uncreated host rest same =>
      rw [rest] at same
      exact .inl same.queue
  | places state => exact .inr ⟨_, by rw [state]⟩
  | breaks host queue rabJobs incoming directories nextIncoming => exact .inl queue
  | answers answers duplicate jobId same => exact .inl same.queue
  | unanswered same => exact .inl same.queue

lemma ServicePart.role_eq (h : ServicePart env i x x' point point') : point'.role = point.role := by
  cases h <;> rfl

lemma Point.stopped_eq_false (h : point.role ≠ .worker) : point.stopped = false := by
  cases point with
  | worker point => exact absurd rfl h
  | _ => rfl

lemma Point.toPut_eq_zero (h : point.role ≠ .closing) : point.toPut env = 0 := by
  cases point with
  | closing point => exact absurd rfl h
  | _ => rfl

/-- Each sentinel is still to be put, in the queue, or with the worker that it has stopped. -/
lemma ServicePart.balance (h : ServicePart env i x x' point point')
    (hroom : sentinels x.store.queue + point.toPut env ≤ env.workers.length) :
    sentinels x'.store.queue + point'.stopped.toNat + point'.toPut env =
      sentinels x.store.queue + point.stopped.toNat + point.toPut env := by
  cases h with
  | call part ended =>
      obtain hqueue | ⟨job, hqueue⟩ := part.queue <;> rw [hqueue]
      · rfl
      · rw [sentinels_append]
        rfl
  | worker part => cases part with
    | takes queue state =>
        rw [state, queue]
        rfl
    | stops queue state => simp [state, queue, Point.stopped, Point.toPut]
    | serves handles finished rest =>
        rw [handles.queue]
        rfl
    | dies handles rest =>
        rw [handles.queue]
        rfl
  | closing part => cases part with
    | begins state =>
        rw [state]
        rfl
    | takes queue state =>
        rw [state, queue]
        rfl
    | skips queue state =>
        -- No sentinel has been put yet.
        simp [queue, Point.toPut] at hroom
    | drained queue state =>
        rw [state]
        rfl
    | interrupts handles finished rest =>
        rw [handles.queue]
        rfl
    | dies handles rest =>
        rw [handles.queue]
        rfl
    | puts state =>
        simp only [state, sentinels_append, sentinels_cons, sentinels_nil, Point.stopped,
          Point.toPut, Option.isNone_none, Bool.toNat_true, Bool.toNat_false]
        omega
    | stopped state =>
        rw [state]
        rfl
    | joins ended state =>
        rw [state]
        rfl
    | returns state =>
        rw [state]
        rfl

/-- A thread is known to have ended when it has. -/
lemma ServicePart.ended (h : ServicePart env i x x' point point') :
    (∀ j, j ≠ i → x'.ended j = x.ended j) ∧ (x.ended i = true → x'.ended i = true) ∧
      (x.ended i = point.ended → x'.ended i = point'.ended) := by
  have hsame {ended : Bool} (hx : x'.ended = x.ended) (hpoint : point.ended = ended)
      (hpoint' : point'.ended = ended) : (∀ j, j ≠ i → x'.ended j = x.ended j) ∧
        (x.ended i = true → x'.ended i = true) ∧
        (x.ended i = point.ended → x'.ended i = point'.ended) :=
    ⟨fun j _ => by rw [hx], fun h => by rw [hx, h], fun h => by rw [hx, h, hpoint, hpoint']⟩
  have hends (hx : x'.ended = Function.update x.ended i true) (hpoint' : point'.ended = true) :
      (∀ j, j ≠ i → x'.ended j = x.ended j) ∧ (x.ended i = true → x'.ended i = true) ∧
        (x.ended i = point.ended → x'.ended i = point'.ended) := by
    rw [hx, hpoint', Function.update_self]
    exact ⟨fun j hne => Function.update_of_ne hne .., fun _ => rfl, fun _ => rfl⟩
  cases h with
  | call part ended => exact hsame ended rfl rfl
  | worker part => cases part with
    | takes queue state => exact hsame (by rw [state]) rfl rfl
    | stops queue state => exact hends (by rw [state]) rfl
    | serves handles finished rest => exact hsame (by rw [rest]) rfl rfl
    | dies handles rest => exact hends (by rw [rest]) rfl
  | closing part =>
      have hx : x'.ended = x.ended := by
        cases part with
        | interrupts handles finished rest => rw [rest]
        | dies handles rest => rw [rest]
        | begins state => rw [state]
        | takes queue state => rw [state]
        | skips queue state => rw [state]
        | drained queue state => rw [state]
        | puts state => rw [state]
        | stopped state => rw [state]
        | joins ended state => rw [state]
        | returns state => rw [state]
      exact hsame hx rfl rfl

/-- No worker is passed over, and none is joined twice. -/
lemma ServicePart.joins (h : ServicePart env i x x' point point') :
    (∀ worker ∈ point.toJoin env, worker ∈ point'.toJoin env ∨ x.ended worker = true) ∧
      ∀ worker ∈ point'.toJoin env, worker ∈ point.toJoin env ∨ worker ∈ env.workers := by
  cases h with
  | call part ended => exact ⟨fun _ h => (by cases h), fun _ h => (by cases h)⟩
  | worker part => exact ⟨fun _ h => (by cases h), fun _ h => (by cases h)⟩
  | closing part => cases part with
    | joins ended state =>
        refine ⟨fun worker hworker => ?_, fun _ h => .inl (List.mem_cons_of_mem _ h)⟩
        obtain rfl | hworker := List.mem_cons.1 hworker
        · exact .inr ended
        · exact .inl hworker
    | returns state => exact ⟨fun _ h => (by cases h), fun _ h => (by cases h)⟩
    | dies handles rest => exact ⟨fun _ h => .inl h, fun _ h => .inr h⟩
    | _ => exact ⟨fun _ h => .inl h, fun _ h => .inl h⟩

end Sentinels

/-- What holds of the threads and of the sentinels. -/
structure Balanced (env : ServiceEnv) (closer : ℕ) (s : State ℕ Shared Point) : Prop where
  workers : ∀ i, (s.points i).role = .worker ↔ i ∈ env.workers
  closing : ∀ i, (s.points i).role = .closing ↔ i = closer
  sentinels : sentinels s.shared.store.queue + count env.workers Point.stopped s +
    (s.points closer).toPut env = env.workers.length
  ended : ∀ i ∈ env.workers, s.shared.ended i = (s.points i).ended
  joined : ∀ i ∈ env.workers, i ∈ (s.points closer).toJoin env ∨ s.shared.ended i = true
  toJoin : ∀ i ∈ (s.points closer).toJoin env, i ∈ env.workers

section Balance

variable {env : ServiceEnv} {closer : ℕ} {start s t state : State ℕ Shared Point} {i : ℕ}
  {trace : List (State ℕ Shared Point × ℕ)}

lemma Balanced.step (hdistinct : env.workers.Nodup) (h : Balanced env closer s)
    (hstep : ServiceStep env s i t)
    (hpart : ServicePart env i s.shared t.shared (s.points i) (t.points i)) :
    Balanced env closer t := by
  have hrole : ∀ j, (t.points j).role = (s.points j).role := by
    intro j
    by_cases hj : j = i
    · rw [hj, hpart.role_eq]
    · rw [hstep.others j hj]
  have hsum := h.sentinels
  refine ⟨fun j => hrole j ▸ h.workers j, fun j => hrole j ▸ h.closing j, ?_, fun j hj => ?_,
    fun j hj => ?_, fun j hj => ?_⟩
  · by_cases hcloser : i = closer
    · -- The thread is no worker.
      have hnot : (s.points i).role ≠ .worker := by
        rw [(h.closing i).2 hcloser]
        exact fun h => by cases h
      subst hcloser
      have hbalance := hpart.balance (by omega)
      rw [Point.stopped_eq_false hnot, Point.stopped_eq_false (hrole i ▸ hnot)] at hbalance
      rw [count_of_not_mem hstep fun hi => hnot ((h.workers i).2 hi)]
      simp only [Bool.toNat_false] at hbalance
      omega
    · have hnot : (s.points i).role ≠ .closing := fun h' => hcloser ((h.closing i).1 h')
      have hbalance := hpart.balance (by
        rw [Point.toPut_eq_zero hnot]
        omega)
      rw [Point.toPut_eq_zero hnot, Point.toPut_eq_zero (hrole i ▸ hnot)] at hbalance
      rw [hstep.others closer (Ne.symm hcloser)]
      by_cases hi : i ∈ env.workers
      · have hcount := count_step (p := Point.stopped) hstep hdistinct hi
        omega
      · have hworker : (s.points i).role ≠ .worker := fun h' => hi ((h.workers i).1 h')
        rw [Point.stopped_eq_false hworker, Point.stopped_eq_false (hrole i ▸ hworker)]
          at hbalance
        rw [count_of_not_mem hstep hi]
        simp only [Bool.toNat_false] at hbalance
        omega
  · by_cases hji : j = i
    · subst hji
      exact hpart.ended.2.2 (h.ended j hj)
    · rw [hstep.others j hji, hpart.ended.1 j hji]
      exact h.ended j hj
  · have hmono : s.shared.ended j = true → t.shared.ended j = true := by
      intro hended
      by_cases hji : j = i
      · subst hji
        exact hpart.ended.2.1 hended
      · rwa [hpart.ended.1 j hji]
    obtain hjoin | hended := h.joined j hj
    · by_cases hcloser : i = closer
      · subst hcloser
        exact (hpart.joins.1 j hjoin).imp_right hmono
      · rw [hstep.others closer (Ne.symm hcloser)]
        exact .inl hjoin
    · exact .inr (hmono hended)
  · by_cases hcloser : i = closer
    · subst hcloser
      exact (hpart.joins.2 j hj).elim (h.toJoin j) id
    · rw [hstep.others closer (Ne.symm hcloser)] at hj
      exact h.toJoin j hj

lemma Deploys.serving (h : Deploys env closer start) :
    start.points closer = .closing .serving := by
  have hrole := (h.closing closer).2 rfl
  obtain ⟨call, hpoint⟩ | hpoint | hpoint := Point.begins_iff.1 (h.starts.begins closer)
  · rw [hpoint] at hrole
    cases hrole
  · rw [hpoint] at hrole
    cases hrole
  · exact hpoint

lemma Deploys.balanced (h : Deploys env closer start) : Balanced env closer start where
  workers := h.workers
  closing := h.closing
  sentinels := by
    have hcount : count env.workers Point.stopped start = 0 := by
      refine List.countP_eq_zero.2 fun i _ => ?_
      obtain ⟨call, hpoint⟩ | hpoint | hpoint := Point.begins_iff.1 (h.starts.begins i) <;>
        simp [hpoint, Point.stopped]
    rw [sentinels_eq_zero.2 h.sentinels, hcount, h.serving]
    change 0 + 0 + env.workers.length = _
    rw [Nat.zero_add]
  ended i hi := by
    rw [h.alive i hi]
    obtain ⟨call, hpoint⟩ | hpoint | hpoint := Point.begins_iff.1 (h.starts.begins i) <;>
      rw [hpoint] <;> rfl
  joined i hi := by
    rw [h.serving]
    exact .inl hi
  toJoin i hi := by
    rw [h.serving] at hi
    exact hi

lemma Balanced.run (h : Deploys env closer start) (hrun : ServiceRun env start trace state) :
    ServiceSound env state ∧ Balanced env closer state := by
  refine hrun.invariant (I := fun s => ServiceSound env s ∧ Balanced env closer s)
    (fun {s k t} hs hstep => ?_) ⟨h.starts.sound, h.balanced⟩
  have hpart := advance_part hs.1.shared (hs.1.each k) hstep.moves
  exact ⟨hs.1.step advance_keeps hstep, hs.2.step h.distinct hstep hpart⟩

/-- A sentinel is in the queue for each worker that has not come to it, once all have been put. -/
lemma Balanced.sentinel_mem (h : Balanced env closer s) (hput : (s.points closer).toPut env = 0)
    (hi : i ∈ env.workers) (hstopped : (s.points i).stopped = false) :
    none ∈ s.shared.store.queue := by
  by_contra hnone
  have hsum := h.sentinels
  rw [sentinels_eq_zero.2 hnone, hput] at hsum
  have hcount : count env.workers Point.stopped s = env.workers.length := by omega
  cases hstopped.symm.trans (List.countP_eq_length.1 hcount i hi)

/-- Once all the workers have been joined, those that no exception has ended have stopped. -/
lemma Balanced.stopped (h : Balanced env closer s)
    (hreturned : s.points closer = .closing .returned)
    (halive : ∀ i ∈ env.workers, (s.points i).left = none) (hi : i ∈ env.workers) :
    s.points i = .worker .stopped := by
  have hended : s.shared.ended i = true := (h.joined i hi).resolve_left fun hjoin => by
    rw [hreturned] at hjoin
    cases hjoin
  have hleft := halive i hi
  have hrole := (h.workers i).2 hi
  rw [h.ended i hi] at hended
  cases hpoint : s.points i with
  | worker point =>
      rw [hpoint] at hended hleft
      cases point with
      | stopped => rfl
      | dead id => cases hleft
      | _ => cases hended
  | call submission point =>
      rw [hpoint] at hrole
      cases hrole
  | closing point =>
      rw [hpoint] at hrole
      cases hrole

/-- The sentinels are gone then. -/
lemma Balanced.no_sentinel (h : Balanced env closer s)
    (hreturned : s.points closer = .closing .returned)
    (halive : ∀ i ∈ env.workers, (s.points i).left = none) :
    none ∉ s.shared.store.queue := by
  have hcount : count env.workers Point.stopped s = env.workers.length :=
    List.countP_eq_length.2 fun i hi => by
      rw [h.stopped hreturned halive hi]
      rfl
  have hsum := h.sentinels
  rw [hcount] at hsum
  exact sentinels_eq_zero.1 (by omega)

/-- And no thread has a job. -/
lemma Balanced.serves_nothing (h : Balanced env closer s)
    (hreturned : s.points closer = .closing .returned)
    (halive : ∀ i ∈ env.workers, (s.points i).left = none) (i : ℕ) {id : JobId} :
    id ∉ (s.points i).serves := by
  intro hserves
  cases hpoint : s.points i with
  | call submission point =>
      rw [hpoint] at hserves
      obtain h | h := hserves <;> cases h
  | worker point =>
      have hi := (h.workers i).1 (by rw [hpoint]; rfl)
      rw [h.stopped hreturned halive hi] at hserves
      obtain h | h := hserves <;> cases h
  | closing point =>
      have hi := (h.closing i).1 (by rw [hpoint]; rfl)
      rw [hi, hreturned] at hserves
      obtain h | h := hserves <;> cases h

end Balance

/-! ## What is ahead of the last sentinel, and what is behind it -/

/-- What a step does to the queue once the last sentinel has been put. -/
inductive QueueStep (point : Point) (items : List (Option ScanJob)) :
    List (Option ScanJob) → Prop
  | stays : QueueStep point items items
  | grows (job : ScanJob) : QueueStep point items (items ++ [some job])
  | shrinks {item : Option ScanJob} {rest : List (Option ScanJob)} (queue : items = item :: rest)
      (waits : point = .worker .waiting ∨ point = .closing .draining) :
      QueueStep point items rest

/-- The job is in the queue, and a sentinel comes behind it. -/
def Fenced (id : JobId) (items : List (Option ScanJob)) : Prop :=
  ∃ before after, items = before ++ none :: after ∧ id ∈ itemIds before

/-- The job is in the queue, and no sentinel comes behind it. -/
def Stranded (id : JobId) (items : List (Option ScanJob)) : Prop :=
  ∃ before after, items = before ++ after ∧ id ∈ itemIds after ∧ none ∉ after

section Fences

variable {env : ServiceEnv} {x x' : Shared} {point point' : Point} {i : ℕ} {id : JobId}
  {items items' : List (Option ScanJob)}

lemma ServicePart.queueStep (h : ServicePart env i x x' point point')
    (hput : point.toPut env = 0) : QueueStep point x.store.queue x'.store.queue := by
  cases h with
  | call part ended =>
      obtain hqueue | ⟨job, hqueue⟩ := part.queue <;> rw [hqueue]
      · exact .stays
      · exact .grows job
  | worker part => cases part with
    | takes queue state => exact state ▸ .shrinks queue (.inl rfl)
    | stops queue state => exact state ▸ .shrinks queue (.inl rfl)
    | serves handles finished rest => exact handles.queue ▸ .stays
    | dies handles rest => exact handles.queue ▸ .stays
  | closing part => cases part with
    | takes queue state => exact state ▸ .shrinks queue (.inr rfl)
    | skips queue state => exact state ▸ .shrinks queue (.inr rfl)
    | interrupts handles finished rest => exact handles.queue ▸ .stays
    | dies handles rest => exact handles.queue ▸ .stays
    | puts state => cases hput
    | begins state => exact state ▸ .stays
    | drained queue state => exact state ▸ .stays
    | stopped state => exact state ▸ .stays
    | joins ended state => exact state ▸ .stays
    | returns state => exact state ▸ .stays

/-- The last sentinel is put behind all that is in the queue. -/
lemma ServicePart.closes (h : ServicePart env i x x' point point')
    (hopen : point.closed = false) (hclosed : point'.closed = true) :
    x.store.queue = [] ∨ x'.store.queue = x.store.queue ++ [none] := by
  cases h with
  | call part ended => cases hclosed
  | worker part => cases hclosed
  | closing part => cases part with
    | drained queue state => exact .inl queue
    | puts state => exact .inr (by rw [state])
    | stopped state => cases hopen
    | joins ended state => cases hopen
    | returns state => cases hopen
    | _ => cases hclosed

lemma Fenced.step (h : Fenced id items) (hstep : QueueStep point items items')
    (hdistinct : (itemIds items).Nodup) (hid : id ∈ itemIds items') : Fenced id items' := by
  obtain ⟨before, after, hitems, hbefore⟩ := h
  cases hstep with
  | stays => exact ⟨before, after, hitems, hbefore⟩
  | grows job => exact ⟨before, after ++ [some job], by simp [hitems], hbefore⟩
  | @shrinks item rest queue waits =>
      cases before with
      | nil => cases hbefore
      | cons head before =>
          rw [queue] at hitems hdistinct
          obtain ⟨rfl, rfl⟩ := List.cons.inj hitems
          refine ⟨before, after, rfl, (mem_itemIds_cons.1 hbefore).resolve_left fun hhead => ?_⟩
          obtain ⟨job, rfl, rfl⟩ := Option.map_eq_some_iff.1 hhead
          exact (List.nodup_cons.1 hdistinct).1 hid

/-- What is behind the last sentinel moves up only while there are sentinels. -/
lemma Stranded.step (h : Stranded id items) (hstep : QueueStep point items items')
    (hwaits : point = .worker .waiting ∨ point = .closing .draining → none ∈ items) :
    Stranded id items' := by
  obtain ⟨before, after, hitems, hafter, hnone⟩ := h
  cases hstep with
  | stays => exact ⟨before, after, hitems, hafter, hnone⟩
  | grows job =>
      refine ⟨before, after ++ [some job], by simp [hitems], ?_, by simp [hnone]⟩
      rw [itemIds_append]
      exact List.mem_append_left _ hafter
  | @shrinks item rest queue waits =>
      cases before with
      | nil =>
          rw [hitems] at hwaits
          exact absurd (hwaits waits) hnone
      | cons head before =>
          rw [queue] at hitems
          obtain ⟨rfl, rfl⟩ := List.cons.inj hitems
          exact ⟨before, after, rfl, hafter, hnone⟩

end Fences

/-! ## Whole runs -/

section Runs

variable {env : ServiceEnv} {closer : ℕ} {start s t state : State ℕ Shared Point} {i : ℕ}
  {id : JobId} {trace : List (State ℕ Shared Point × ℕ)}

lemma Point.toPut_of_closed {point : Point} (h : point.closed = true) : point.toPut env = 0 := by
  cases point with
  | closing point => cases point with
    | stopping left => cases left with
      | zero => rfl
      | succ left => cases h
    | joining left => rfl
    | returned => rfl
    | _ => cases h
  | _ => cases h

lemma Point.role_of_placed {point : Point} (h : id ∈ point.placed) : point.role = .call := by
  cases point with
  | call submission point => rfl
  | _ => cases h

/-- Once the last sentinel has been put, no thread puts any. -/
lemma Balanced.toPut (h : Balanced env closer s) (hclosed : (s.points closer).closed = true) :
    (s.points i).toPut env = 0 := by
  by_cases hi : i = closer
  · rw [hi]
    exact Point.toPut_of_closed hclosed
  · exact Point.toPut_eq_zero fun hrole => hi ((h.closing i).1 hrole)

/-- Nothing but a new job comes into the queue. -/
lemma queue_mem_of_step (hsound : ServiceSound env s) (hsound' : ServiceSound env t)
    (hstep : ServiceStep env s i t)
    (hpart : ServicePart env i s.shared t.shared (s.points i) (t.points i))
    (haccounted : Accounted AtRest Point.serves s id) (hid : id ∈ itemIds t.shared.store.queue) :
    id ∈ itemIds s.shared.store.queue := by
  have hthread := hsound.each i
  have hunsettled : ¬Settled t.shared id := by
    obtain ⟨job, hjob, rfl⟩ := exists_of_mem_itemIds hid
    exact fun h => (hsound'.shared.queued job hjob).1.not_over h.2
  have hunserved : ∀ j, id ∉ (t.points j).serves := fun j hserves =>
    ((hsound'.each j).taken hsound'.shared _ (Point.job_mem_owns hserves)).2 hid
  obtain (hqueue | hsettled) | ⟨j, hserves⟩ := haccounted
  · exact hqueue
  · exact absurd (hsettled.step hpart hthread) hunsettled
  by_cases hji : j = i
  · subst hji
    obtain hhandling | hleft := hserves
    · obtain h | h := hpart.handled hthread hhandling
      · exact absurd h hunsettled
      · exact absurd (.inr h) (hunserved j)
    · cases hpart.left_eq_none.symm.trans hleft
  · rw [← hstep.others j hji] at hserves
    exact absurd hserves (hunserved j)

/-- The job is accounted for, and ahead of the last sentinel if it is in the queue. -/
def Ahead (closer : ℕ) (id : JobId) (s : State ℕ Shared Point) : Prop :=
  Accounted AtRest Point.serves s id ∧ ((s.points closer).closed = true →
    id ∈ itemIds s.shared.store.queue → Fenced id s.shared.store.queue)

lemma Ahead.step (hbalanced : Balanced env closer s) (hsound : ServiceSound env s)
    (hsound' : ServiceSound env t) (hstep : ServiceStep env s i t)
    (hpart : ServicePart env i s.shared t.shared (s.points i) (t.points i))
    (h : Ahead closer id s) : Ahead closer id t := by
  obtain ⟨haccounted, hfenced⟩ := h
  refine ⟨haccounted.step (hpart.accounts (hsound.each i)) hstep, fun hclosed hid => ?_⟩
  have hqueue := queue_mem_of_step hsound hsound' hstep hpart haccounted hid
  by_cases hopen : (s.points closer).closed = true
  · exact (hfenced hopen hqueue).step (hpart.queueStep (hbalanced.toPut hopen))
      hsound.shared.distinct hid
  · rw [Bool.not_eq_true] at hopen
    by_cases hi : i = closer
    · subst hi
      obtain hempty | hputs := hpart.closes hopen hclosed
      · rw [hempty] at hqueue
        cases hqueue
      · exact ⟨_, [], hputs, hqueue⟩
    · rw [hstep.others closer (Ne.symm hi), hopen] at hclosed
      cases hclosed

lemma Ahead.run (h : Deploys env closer start) (hrun : ServiceRun env start trace s)
    {later : List (State ℕ Shared Point × ℕ)} (hlater : ServiceRun env s later state)
    (hahead : Ahead closer id s) : Ahead closer id state := by
  refine (hlater.invariant (I := fun s => (ServiceSound env s ∧ Balanced env closer s) ∧
    Ahead closer id s) (fun {s k t} hs hstep => ?_) ⟨Balanced.run h hrun, hahead⟩).2
  obtain ⟨⟨hsound, hbalanced⟩, hahead⟩ := hs
  have hpart := advance_part hsound.shared (hsound.each k) hstep.moves
  have hsound' := hsound.step advance_keeps hstep
  exact ⟨⟨hsound', hbalanced.step h.distinct hstep hpart⟩,
    hahead.step hbalanced hsound hsound' hstep hpart⟩

/-- The job had been placed in a state in which `shutdown` had still a sentinel to put. -/
def PlacedInTime (closer : ℕ) (trace : List (State ℕ Shared Point × ℕ)) (id : JobId) : Prop :=
  ∃ taken ∈ trace, (taken.1.points closer).closed = false ∧ ∃ i, id ∈ (taken.1.points i).placed

/-- Where a job is that has been placed while `shutdown` had still a sentinel to put, or after. -/
lemma placed_run (h : Deploys env closer start) (hrun : ServiceRun env start trace state)
    (hplaced : id ∈ (state.points i).placed) :
    PlacedInTime closer trace id ∨
      (state.points closer).closed = false ∨ Stranded id state.shared.store.queue := by
  induction hrun generalizing i with
  | nil =>
      obtain ⟨call, hpoint⟩ | hpoint | hpoint := Point.begins_iff.1 (h.starts.begins i) <;>
        rw [hpoint] at hplaced <;> exact hplaced.elim
  | @snoc trace s t k run hstep ih =>
      obtain ⟨hsound, hbalanced⟩ := Balanced.run h run
      have hpart := advance_part hsound.shared (hsound.each k) hstep.moves
      have hbefore : id ∈ (s.points i).placed ∨
          i = k ∧ ∃ job : ScanJob, job.jobId = id ∧
            t.shared.store.queue = s.shared.store.queue ++ [some job] := by
        by_cases hik : i = k
        · subst hik
          exact (hpart.placed hplaced).imp_right fun h => ⟨rfl, h⟩
        · exact .inl (hstep.others i hik ▸ hplaced)
      by_cases hclosed : (s.points closer).closed = true
      · obtain hbefore | ⟨-, job, rfl, hqueue⟩ := hbefore
        · obtain ⟨taken, hmem, htaken⟩ | hopen | hstranded := ih hbefore
          · exact .inl ⟨taken, List.mem_append_left _ hmem, htaken⟩
          · cases hopen.symm.trans hclosed
          · refine .inr (.inr (hstranded.step (hpart.queueStep (hbalanced.toPut hclosed)) ?_))
            rintro (hwaits | hdrains)
            · have hworker : (s.points k).role = .worker := by rw [hwaits]; rfl
              exact hbalanced.sentinel_mem (Point.toPut_of_closed hclosed)
                ((hbalanced.workers k).1 hworker) (by rw [hwaits]; rfl)
            · have hcloser : (s.points k).role = .closing := by rw [hdrains]; rfl
              rw [← (hbalanced.closing k).1 hcloser, hdrains] at hclosed
              cases hclosed
        · exact .inr (.inr ⟨_, [some job], hqueue, List.mem_singleton_self _, by simp⟩)
      · rw [Bool.not_eq_true] at hclosed
        obtain hbefore | ⟨rfl, -⟩ := hbefore
        · exact .inl ⟨(s, k), List.mem_append_right _ (List.mem_singleton_self _), hclosed, i,
            hbefore⟩
        · have hcall : (s.points i).role ≠ .closing := by
            rw [← hpart.role_eq, Point.role_of_placed hplaced]
            exact fun h => by cases h
          rw [← hstep.others closer fun hi => hcall ((hbalanced.closing i).2 hi.symm)] at hclosed
          exact .inr (.inl hclosed)

/-- What comes behind the last sentinel stays in the queue. -/
lemma queued_of_late (h : Deploys env closer start) (hrun : ServiceRun env start trace state)
    (hreturned : state.points closer = .closing .returned)
    (hplaced : id ∈ (state.points i).placed) (hlate : ¬PlacedInTime closer trace id) :
    id ∈ itemIds state.shared.store.queue := by
  obtain hbefore | hopen | ⟨before, after, hqueue, hafter, -⟩ := placed_run h hrun hplaced
  · exact absurd hbefore hlate
  · rw [hreturned] at hopen
    cases hopen
  · rw [hqueue, itemIds, List.filterMap_append]
    exact List.mem_append_right _ hafter

/-- What comes before a sentinel has been taken from the queue. -/
lemma over_of_inTime (h : Deploys env closer start) (hrun : ServiceRun env start trace state)
    (hreturned : state.points closer = .closing .returned)
    (halive : ∀ i ∈ env.workers, (state.points i).left = none)
    (hbefore : PlacedInTime closer trace id) : state.shared.store.Over id := by
  obtain ⟨-, hbalanced⟩ := Balanced.run h hrun
  have hclosed : (state.points closer).closed = true := by rw [hreturned]; rfl
  have hnone := hbalanced.no_sentinel hreturned halive
  obtain ⟨⟨s, k⟩, hmem, hopen, j, hplaced⟩ := hbefore
  obtain ⟨earlier, later, hearlier, hlater⟩ := hrun.split hmem
  have hahead : Ahead closer id s :=
    ⟨placed_accounted h.starts hearlier hplaced,
      fun hclosed => by cases hopen.symm.trans hclosed⟩
  obtain ⟨hrests | ⟨j, hserves⟩, hfenced⟩ := hahead.run h hearlier hlater
  · refine (hrests.resolve_left fun hid => ?_).2
    obtain ⟨before, after, hqueue, -⟩ := hfenced hclosed hid
    exact hnone (by simp [hqueue])
  · exact absurd hserves (hbalanced.serves_nothing hreturned halive j)

/-- Exactly the jobs that were placed while `shutdown` had still a sentinel to put are over when
it returns, if no exception has ended a worker; the others are still in the queue. -/
theorem accepted_over_iff (h : Deploys env closer start) (hrun : ServiceRun env start trace state)
    (hreturned : state.points closer = .closing .returned)
    (halive : ∀ i ∈ env.workers, (state.points i).left = none)
    (hplaced : id ∈ (state.points i).placed) :
    (state.shared.store.Over id ↔ PlacedInTime closer trace id) ∧
      (¬PlacedInTime closer trace id → id ∈ itemIds state.shared.store.queue) := by
  have hlate := queued_of_late h hrun hreturned hplaced
  refine ⟨⟨fun hover => ?_, over_of_inTime h hrun hreturned halive⟩, hlate⟩
  by_contra hbefore
  obtain ⟨job, hjob, rfl⟩ := exists_of_mem_itemIds (hlate hbefore)
  exact (Balanced.run h hrun).1.shared.queued job hjob |>.1.not_over hover

end Runs

/-! ## A service with one worker -/

def oneWorkerEnv : ServiceEnv := { plainServiceEnv with workers := [2] }

/-- The call of another client. -/
def otherCall : Submission :=
  { plainCall fun _ => none with client := ⟨PyStr.ofString "other", []⟩ }

/-- Thread 1 shuts the service down, thread 2 is its worker, and the others make calls, of which
that of thread 3 is the call of another client. -/
def oneWorker : State ℕ Shared Point where
  shared := ⟨emptyStore, false, fun _ => false⟩
  points := fun i =>
    if i = 1 then .closing .serving
    else if i = 2 then .worker .waiting
    else if i = 3 then .call otherCall .started
    else .call (plainCall fun _ => none) .started

lemma oneWorker_points (i : ℕ) : (i = 1 ∧ oneWorker.points i = .closing .serving) ∨
    (i = 2 ∧ oneWorker.points i = .worker .waiting) ∨
      (i ≠ 1 ∧ i ≠ 2 ∧ ∃ call, oneWorker.points i = .call call .started) := by
  by_cases h1 : i = 1
  · exact .inl ⟨h1, if_pos h1⟩
  by_cases h2 : i = 2
  · exact .inr (.inl ⟨h2, (if_neg h1).trans (if_pos h2)⟩)
  refine .inr (.inr ⟨h1, h2, ?_⟩)
  by_cases h3 : i = 3
  · exact ⟨_, (if_neg h1).trans ((if_neg h2).trans (if_pos h3))⟩
  · exact ⟨_, (if_neg h1).trans ((if_neg h2).trans (if_neg h3))⟩

lemma oneWorker_deploys : Deploys oneWorkerEnv 1 oneWorker where
  starts := by
    refine ⟨emptyStore_sound, rfl, fun i => ?_⟩
    obtain ⟨-, h⟩ | ⟨-, h⟩ | ⟨-, -, call, h⟩ := oneWorker_points i <;> rw [h] <;> rfl
  distinct := List.nodup_singleton 2
  workers i := by
    obtain ⟨hi, h⟩ | ⟨hi, h⟩ | ⟨-, hi, call, h⟩ := oneWorker_points i <;> rw [h] <;>
      simp [hi, Point.role, oneWorkerEnv]
  closing i := by
    obtain ⟨hi, h⟩ | ⟨hi, h⟩ | ⟨hi, -, call, h⟩ := oneWorker_points i <;> rw [h] <;>
      simp [hi, Point.role]
  alive i _ := rfl
  sentinels := List.not_mem_nil

/-- `shutdown` finds one job in the queue, and another is placed behind the sentinel. -/
def lateSchedule : List ℕ := [3, 0, 0, 0, 0, 0, 0, 1, 1, 1, 1, 1, 3, 3, 3, 3, 3, 2, 1, 1, 1]

/-- The job that `shutdown` finds in the queue has been placed in time; the other one stays. -/
theorem late_job_stays :
    ∃ trace, ServiceRun oneWorkerEnv oneWorker trace
        (follow (advance oneWorkerEnv) lateSchedule oneWorker) ∧
      PlacedInTime 1 trace 0 ∧
      1 ∈ itemIds (follow (advance oneWorkerEnv) lateSchedule oneWorker).shared.store.queue := by
  obtain ⟨trace, hrun, -⟩ := run_follow (advance oneWorkerEnv) lateSchedule oneWorker
  set state := follow (advance oneWorkerEnv) lateSchedule oneWorker with hstate
  have hplaced : 0 ∈ (state.points 0).placed := ⟨rfl, rfl⟩
  have hplaced' : 1 ∈ (state.points 3).placed := ⟨rfl, rfl⟩
  have halive : ∀ i ∈ oneWorkerEnv.workers, (state.points i).left = none := by
    intro i hi
    obtain rfl := List.mem_singleton.1 hi
    rfl
  have hover : state.shared.store.Over 0 := ⟨⟨_, rfl, rfl, by decide⟩, rfl⟩
  have hwaits : ¬state.shared.store.Over 1 := by
    rintro ⟨⟨job, hjob, -, hstatus⟩, -⟩
    cases hjob
    exact absurd hstatus (by decide)
  have hearly := accepted_over_iff oneWorker_deploys hrun rfl halive hplaced
  have hlate := accepted_over_iff oneWorker_deploys hrun rfl halive hplaced'
  exact ⟨trace, hrun, hearly.1.1 hover, hlate.2 fun hbefore => hwaits (hlate.1.2 hbefore)⟩

/-! ## Nothing keeps `shutdown` waiting for ever -/

/-- The steps that an item of the queue still asks for: a job is taken and served. -/
def itemWork : Option ScanJob → ℕ
  | none => 1
  | some _ => 2

def queueWork (items : List (Option ScanJob)) : ℕ := (items.map itemWork).sum

/-- The steps that a worker or `shutdown` can still take for itself. -/
def Point.work (env : ServiceEnv) : Point → ℕ
  | .worker (.holding _) => 1
  | .closing .serving => 3 * env.workers.length + 4
  | .closing .draining => 3 * env.workers.length + 3
  | .closing (.interrupting _) => 3 * env.workers.length + 4
  | .closing (.stopping left) => 2 * left + env.workers.length + 2
  | .closing (.joining left) => left.length + 1
  | _ => 0

/-- Whether a worker has a job in its hands. -/
def Point.holding : Point → Bool
  | .worker (.holding _) => true
  | _ => false

/-- The steps that the workers and `shutdown` can still take, if no call comes in between. -/
def work (env : ServiceEnv) (closer : ℕ) (s : State ℕ Shared Point) : ℕ :=
  queueWork s.shared.store.queue + count env.workers Point.holding s +
    (s.points closer).work env

/-- A step of a worker or of `shutdown`. -/
def Proceeds (taken : State ℕ Shared Point × ℕ) : Bool :=
  (taken.1.points taken.2).role ≠ .call

section Work

variable {env : ServiceEnv} {closer : ℕ} {start mid s t state : State ℕ Shared Point} {i : ℕ}
  {x x' : Shared} {point point' : Point} {trace : List (State ℕ Shared Point × ℕ)}

lemma queueWork_cons (item : Option ScanJob) (items : List (Option ScanJob)) :
    queueWork (item :: items) = itemWork item + queueWork items := by
  simp [queueWork]

lemma queueWork_append (item : Option ScanJob) (items : List (Option ScanJob)) :
    queueWork (items ++ [item]) = queueWork items + itemWork item := by
  simp [queueWork]

/-- A step of a worker or of `shutdown` leaves less to do, and a call adds one job at most. -/
lemma ServicePart.work (h : ServicePart env i x x' point point') :
    point.role = .call ∧ queueWork x'.store.queue ≤ queueWork x.store.queue + 2 ∨
      point.role ≠ .call ∧ queueWork x'.store.queue + point'.work env + 1 ≤
        queueWork x.store.queue + point.work env := by
  cases h with
  | call part ended =>
      refine .inl ⟨rfl, ?_⟩
      obtain hqueue | ⟨job, hqueue⟩ := part.queue <;> rw [hqueue]
      · exact Nat.le_add_right _ _
      · exact (queueWork_append ..).le
  | worker part =>
      refine .inr ⟨fun h => (by cases h), ?_⟩
      cases part with
      | takes queue state =>
          rw [state, queue, queueWork_cons]
          simp only [Point.work, itemWork]
          omega
      | stops queue state =>
          rw [state, queue, queueWork_cons]
          simp only [Point.work, itemWork]
          omega
      | serves handles finished rest => rw [handles.queue]; rfl
      | dies handles rest => rw [handles.queue]; rfl
  | closing part =>
      refine .inr ⟨fun h => (by cases h), ?_⟩
      cases part with
      | begins state => rw [state]; rfl
      | takes queue state =>
          rw [state, queue, queueWork_cons]
          simp only [Point.work, itemWork]
          omega
      | skips queue state =>
          rw [state, queue, queueWork_cons]
          simp only [Point.work, itemWork]
          omega
      | drained queue state =>
          rw [state]
          simp only [Point.work]
          omega
      | interrupts handles finished rest => rw [handles.queue]; rfl
      | dies handles rest =>
          rw [handles.queue]
          simp only [Point.work]
          omega
      | puts state =>
          rw [state, queueWork_append]
          simp only [Point.work, itemWork]
          omega
      | stopped state =>
          rw [state]
          simp only [Point.work]
          omega
      | joins ended state => rw [state]; rfl
      | returns state => rw [state]; rfl

lemma Point.work_eq_holding (h : point.role = .worker) : point.work env = point.holding.toNat := by
  cases point with
  | worker point => cases point <;> rfl
  | _ => cases h

/-- What is left to do goes down with each step but those of calls. -/
lemma Balanced.work_step (hdistinct : env.workers.Nodup) (h : Balanced env closer s)
    (hstep : ServiceStep env s i t)
    (hpart : ServicePart env i s.shared t.shared (s.points i) (t.points i)) :
    work env closer t + (Proceeds (s, i)).toNat ≤
      work env closer s + 2 * (!Proceeds (s, i)).toNat := by
  have hrole := hpart.role_eq
  obtain ⟨hcall, hwork⟩ | ⟨hcall, hwork⟩ := hpart.work
  · have hproceeds : Proceeds (s, i) = false := by simp [Proceeds, hcall]
    have hcloser : i ≠ closer := fun hi => by
      cases ((h.closing i).2 hi).symm.trans hcall
    have hworker : i ∉ env.workers := fun hi => by
      cases ((h.workers i).2 hi).symm.trans hcall
    rw [work, work, count_of_not_mem hstep hworker, hstep.others closer hcloser.symm, hproceeds]
    simp only [Bool.toNat_false, Bool.not_false, Bool.toNat_true]
    omega
  · have hproceeds : Proceeds (s, i) = true := by simp [Proceeds, hcall]
    rw [hproceeds, work, work]
    simp only [Bool.toNat_true, Bool.not_true, Bool.toNat_false]
    by_cases hi : i ∈ env.workers
    · have hworker := (h.workers i).2 hi
      have hcloser : i ≠ closer := fun hi => by
        cases ((h.closing i).2 hi).symm.trans hworker
      have hcount := count_step (p := Point.holding) hstep hdistinct hi
      rw [Point.work_eq_holding hworker, Point.work_eq_holding (hrole.trans hworker)] at hwork
      rw [hstep.others closer hcloser.symm]
      omega
    · have hworker : (s.points i).role ≠ .worker := fun h' => hi ((h.workers i).1 h')
      have hcloser : i = closer := by
        refine (h.closing i).1 ?_
        cases hkind : (s.points i).role with
        | call => exact absurd hkind hcall
        | worker => exact absurd hkind hworker
        | closing => rfl
      subst hcloser
      rw [count_of_not_mem hstep hi]
      omega

/-- The workers and `shutdown` take no more steps than the calls give them work for. -/
lemma work_run (h : Deploys env closer start) (hrun : ServiceRun env start trace mid)
    {later : List (State ℕ Shared Point × ℕ)} (hlater : ServiceRun env mid later state) :
    later.countP Proceeds + work env closer state ≤
      work env closer mid + 2 * later.countP (!Proceeds ·) := by
  induction hlater with
  | nil => simp
  | @snoc later s t k run hstep ih =>
      obtain ⟨hsound, hbalanced⟩ := Balanced.run h (hrun.trans run)
      have hpart := advance_part hsound.shared (hsound.each k) hstep.moves
      have hwork := hbalanced.work_step h.distinct hstep hpart
      rw [List.countP_append, List.countP_append, List.countP_singleton, List.countP_singleton]
      cases hproceeds : Proceeds (s, k) <;> simp [hproceeds] at hwork ⊢ <;> omega

/-- Until `shutdown` has returned, it can go on or a worker can. -/
lemma Balanced.proceeds (h : Balanced env closer s) (hcapacity : 0 < env.submit.queueCapacity)
    (halive : ∀ i ∈ env.workers, (s.points i).left = none) :
    s.points closer = .closing .returned ∨ (s.points closer).left ≠ none ∨
      ∃ i, (i = closer ∨ i ∈ env.workers) ∧
        (advance env i s.shared (s.points i)).isSome = true := by
  -- A worker that has not stopped can go on if something is in the queue.
  have hworker {i : ℕ} (hi : i ∈ env.workers) (hstopped : (s.points i).stopped = false)
      (hqueue : s.shared.store.queue ≠ []) :
      (advance env i s.shared (s.points i)).isSome = true := by
    have hrole := (h.workers i).2 hi
    have hleft := halive i hi
    cases hpoint : s.points i with
    | worker point =>
        rw [hpoint] at hstopped hleft
        cases point with
        | waiting =>
            obtain ⟨item, items, hitems⟩ := List.exists_cons_of_ne_nil hqueue
            cases item <;> simp [advance, advanceWorker, hitems]
        | holding job =>
            cases hserve : serveJob env job s.shared.store <;>
              simp [advance, advanceWorker, hserve]
        | stopped => cases hstopped
        | dead id => cases hleft
    | call submission point =>
        rw [hpoint] at hrole
        cases hrole
    | closing point =>
        rw [hpoint] at hrole
        cases hrole
  have hcloser (hgoes : (advance env closer s.shared (s.points closer)).isSome = true) :
      ∃ i, (i = closer ∨ i ∈ env.workers) ∧
        (advance env i s.shared (s.points i)).isSome = true := ⟨closer, .inl rfl, hgoes⟩
  have hrole := (h.closing closer).2 rfl
  have hsum := h.sentinels
  cases hpoint : s.points closer with
  | call submission point =>
      rw [hpoint] at hrole
      cases hrole
  | worker point =>
      rw [hpoint] at hrole
      cases hrole
  | closing point =>
      rw [hpoint] at hcloser
      cases point with
      | returned => exact .inl rfl
      | dead id => exact .inr (.inl fun h => by cases h)
      | serving => exact .inr (.inr (hcloser rfl))
      | draining =>
          refine .inr (.inr (hcloser ?_))
          cases hqueue : s.shared.store.queue with
          | nil => simp [advance, advanceClosing, hqueue]
          | cons item items => cases item <;> simp [advance, advanceClosing, hqueue]
      | interrupting job =>
          refine .inr (.inr (hcloser ?_))
          cases hinterrupt : interrupt env job s.shared.store <;>
            simp [advance, advanceClosing, hinterrupt]
      | stopping left =>
          cases left with
          | zero => exact .inr (.inr (hcloser rfl))
          | succ left =>
              by_cases hroom : s.shared.store.queue.length < env.submit.queueCapacity
              · exact .inr (.inr (hcloser (by simp [advance, advanceClosing, hroom])))
              · -- The queue is full, and some worker has not come to a sentinel.
                have hcount : count env.workers Point.stopped s ≠ env.workers.length := by
                  rw [hpoint] at hsum
                  change _ + _ + (left + 1) = _ at hsum
                  omega
                have hqueue : s.shared.store.queue ≠ [] := fun hempty => by
                  rw [hempty] at hroom
                  exact hroom hcapacity
                rw [count, Ne, List.countP_eq_length] at hcount
                push Not at hcount
                obtain ⟨i, hi, hstopped⟩ := hcount
                exact .inr (.inr ⟨i, .inr hi,
                  hworker hi (Bool.not_eq_true _ ▸ hstopped) hqueue⟩)
      | joining left =>
          cases left with
          | nil => exact .inr (.inr (hcloser rfl))
          | cons worker left =>
              cases hended : s.shared.ended worker with
              | true => exact .inr (.inr (hcloser (by simp [advance, advanceClosing, hended])))
              | false =>
                  -- The worker that is joined finds its sentinel in the queue.
                  have hi : worker ∈ env.workers := h.toJoin worker (by
                    rw [hpoint]
                    exact List.mem_cons_self)
                  have hstopped : (s.points worker).stopped = false := by
                    have hends := (h.ended worker hi).symm.trans hended
                    cases hplace : s.points worker with
                    | worker point =>
                        rw [hplace] at hends
                        cases point with
                        | stopped => cases hends
                        | _ => rfl
                    | _ => rfl
                  have hnone := h.sentinel_mem (by rw [hpoint]; rfl) hi hstopped
                  exact .inr (.inr ⟨worker, .inr hi,
                    hworker hi hstopped (List.ne_nil_of_mem hnone)⟩)

/-- `shutdown` returns: without further calls the workers and `shutdown` come to an end after a
number of steps that is known when the calls stop, and if no exception has ended a worker or
`shutdown`, then `shutdown` has returned. -/
theorem shutdown_returns (h : Deploys env closer start)
    (hcapacity : 0 < env.submit.queueCapacity) (hrun : ServiceRun env start trace mid)
    {later : List (State ℕ Shared Point × ℕ)} (hlater : ServiceRun env mid later state)
    (hcalls : ∀ taken ∈ later, Proceeds taken = true) :
    later.length ≤ work env closer mid ∧
      ((∀ i, i = closer ∨ i ∈ env.workers → (state.points i).left = none) →
        (∀ i, i = closer ∨ i ∈ env.workers →
          advance env i state.shared (state.points i) = none) →
        state.points closer = .closing .returned) := by
  have hbalanced := (Balanced.run h (hrun.trans hlater)).2
  refine ⟨?_, fun halive hstuck => ?_⟩
  · have hwork := work_run h hrun hlater
    have hnone : later.countP (!Proceeds ·) = 0 :=
      List.countP_eq_zero.2 fun taken hmem => by simp [hcalls taken hmem]
    rw [List.countP_eq_length.2 hcalls, hnone] at hwork
    omega
  · obtain hreturned | hleft | ⟨i, hi, hgoes⟩ :=
      hbalanced.proceeds hcapacity fun i hi => halive i (.inr hi)
    · exact hreturned
    · exact absurd (halive closer (.inl rfl)) hleft
    · rw [hstuck i hi] at hgoes
      cases hgoes

end Work

/-- When nobody calls, a service with one worker is shut down. -/
theorem oneWorker_returns :
    ∃ later : List (State ℕ Shared Point × ℕ),
      ServiceRun oneWorkerEnv oneWorker later
        (follow (advance oneWorkerEnv) [1, 1, 1, 2, 1, 1, 1] oneWorker) ∧
      later.length ≤ work oneWorkerEnv 1 oneWorker ∧
      (follow (advance oneWorkerEnv) [1, 1, 1, 2, 1, 1, 1] oneWorker).points 1 =
        .closing .returned := by
  obtain ⟨later, hlater, hschedule⟩ := run_follow (advance oneWorkerEnv)
    [1, 1, 1, 2, 1, 1, 1] oneWorker
  have hcalls : ∀ taken ∈ later, Proceeds taken = true := by
    intro taken hmem
    obtain ⟨before, after, hbefore, -⟩ := hlater.split hmem
    have hbalanced := (Balanced.run oneWorker_deploys hbefore).2
    have hthread : taken.2 = 1 ∨ taken.2 = 2 := by
      simpa [or_comm, or_left_comm] using hschedule taken hmem
    refine decide_eq_true fun hcall => ?_
    obtain hi | hi := hthread
    · cases hcall.symm.trans ((hbalanced.closing _).2 hi)
    · cases hcall.symm.trans ((hbalanced.workers _).2 (List.mem_singleton.2 hi))
  obtain ⟨hlength, hreturns⟩ := shutdown_returns oneWorker_deploys (by decide) .nil hlater hcalls
  refine ⟨later, hlater, hlength, hreturns (fun i hi => ?_) fun i hi => ?_⟩
  · obtain rfl | hi := hi
    · rfl
    · obtain rfl := List.mem_singleton.1 hi
      rfl
  · obtain rfl | hi := hi
    · rfl
    · obtain rfl := List.mem_singleton.1 hi
      rfl

end RABService

end AVBox
