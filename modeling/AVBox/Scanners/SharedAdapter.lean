import AVBox.Lib.Transitions
import AVBox.Scanners.Adapters
import Mathlib.Logic.Function.Basic

/-!
# One adapter, several workers

`run_prepared` of `CommandFileAdapter`, for any number of calls on one instance that take their
steps in any order.  The job id goes through the attribute `_active_job_id` of the instance, which
every call sets before its scan and reads after it.

* `Step` is one step of one call.
* `Recorded` is the invariant of the runs: what a call works on lies in the directory of the job
  that was active when it read the attribute.
* `attributed_iff` says in which runs every result lies in the directory of its own job.
-/

namespace AVBox

open Transitions

namespace SharedAdapter

open Scanners

/-- The text of a job id, a UUID. -/
@[ext] structure JobName where
  text : String
  no_slash : '/' ∉ text.toList
  deriving DecidableEq

/-! ## Raw output -/

/-- The files of the directories under `raw-output`. -/
abbrev RawOutput := String → String → Option PyStr

/-- What is stored of a run. -/
def payload (native : CommandResult) : PyStr :=
  native.stdout ++
    if native.stderr = [] then [] else PyStr.ofString "\n[stderr]\n" ++ (native.stderr)

/-- `f"{scanner_id}-{digest[:16]}.log"`. -/
def fileName (sha256 : PyStr → Digest 64) (scannerId : String) (native : CommandResult) : String :=
  scannerId ++ "-" ++ String.ofList ((sha256 (payload native)).val.toList.take 16) ++ ".log"

/-- `f"raw-output/{job_id}/"`. -/
def directory (jobId : String) : String := "raw-output/" ++ jobId ++ "/"

/-- `store_raw_output`: a file that is there is left as it is. -/
def storeRawOutput (sha256 : PyStr → Digest 64) (root : RawOutput) (jobId scannerId : String)
    (native : CommandResult) : RawOutput × String :=
  let name := fileName sha256 scannerId native
  let root :=
    if (root jobId name).isSome then root
    else Function.update root jobId (Function.update (root jobId) name (some (payload native)))
  (root, directory jobId ++ name)

/-- The reference names a file in the directory of the job. -/
def LiesUnder (ref : String) (job : JobName) : Prop := (directory job.text).toList <+: ref.toList

/-- Two names without a slash that a text puts before its first slash. -/
lemma eq_of_before_slash {first second rest rest' : List Char} (hfirst : '/' ∉ first)
    (hsecond : '/' ∉ second) (h : first ++ '/' :: rest = second ++ '/' :: rest') :
    first = second := by
  induction first generalizing second with
  | nil =>
      cases second with
      | nil => rfl
      | cons c second =>
          obtain ⟨rfl, -⟩ := List.cons.inj h
          exact absurd List.mem_cons_self hsecond
  | cons c first ih =>
      cases second with
      | nil =>
          obtain ⟨rfl, -⟩ := List.cons.inj h
          exact absurd List.mem_cons_self hfirst
      | cons d second =>
          obtain ⟨rfl, hrest⟩ := List.cons.inj h
          rw [ih (fun hmem => hfirst (List.mem_cons_of_mem _ hmem))
            (fun hmem => hsecond (List.mem_cons_of_mem _ hmem)) hrest]

lemma liesUnder_iff {owner job : JobName} {name : String} :
    LiesUnder (directory owner.text ++ name) job ↔ owner = job := by
  have hdirectory : ∀ text : String,
      (directory text).toList = "raw-output/".toList ++ (text.toList ++ ['/']) := by
    intro text
    simp [directory]
  unfold LiesUnder
  rw [String.toList_append, hdirectory, hdirectory]
  constructor
  · rintro ⟨rest, h⟩
    simp only [List.append_assoc, List.append_cancel_left_eq, List.cons_append,
      List.nil_append] at h
    have htext := eq_of_before_slash job.no_slash owner.no_slash h
    exact JobName.ext (String.toList_injective htext.symm)
  · rintro rfl
    exact List.prefix_append _ _

/-! ## Steps -/

/-- Where a call of `run_prepared` is. -/
inductive Point
  | waiting
  | scanning
  | attributing (native : CommandResult)
  | storing (native : CommandResult) (owner : String)
  | stored (native : CommandResult) (ref : String)
  | returned (verdict : Verdict) (result : AdapterResult)
  | raised (exc : Exc)

/-- The call has returned a result. -/
def Point.hasReturned : Point → Bool
  | .returned _ _ => true
  | _ => false

/-- The instance, the directories and the calls. -/
structure System where
  active : Option JobName
  root : RawOutput
  points : ℕ → Point

/-- Call `id` is at a point. -/
def System.move (system : System) (id : ℕ) (point : Point) : System :=
  { system with points := Function.update system.points id point }

/-- `"system" if not native.argv else self._job_id(native)`. -/
def System.owner (system : System) (native : CommandResult) : String :=
  if native.argv = [] then "system" else system.active.elim "unknown" JobName.text

inductive Action
  | setActive (id : ℕ)
  | scan (id : ℕ) (outcome : Except Exc CommandResult)
  | readActive (id : ℕ)
  | store (id : ℕ) (fault : Option Exc)
  | finish (id : ℕ) (env : AdapterEnv)

/-- The call that takes the step. -/
def Action.id : Action → ℕ
  | .setActive id | .scan id _ | .readActive id | .store id _ | .finish id _ => id

/-- What the scan leads to. -/
def scanned : Except Exc CommandResult → Point
  | .ok native => .attributing native
  | .error exc => .raised exc

/-- `normalize`, once the raw output is stored. -/
def finished (adapter : Adapter) (env : AdapterEnv) (native : CommandResult) (ref : String) :
    Point :=
  match normalize { env with storeRawOutput := fun _ _ _ => .ok ref } native adapter with
  | .ok pair => .returned pair.1 pair.2
  | .error exc => .raised exc

section Steps

variable (prepared : ℕ → JobName) (adapter : Adapter) (sha256 : PyStr → Digest 64)

/-- One step of one call.  `prepared id` is the job of the prepared scan that call `id` was given.
The runner does not run an empty command. -/
inductive Step : System → Action → System → Prop
  | setActive {system : System} {id : ℕ} (here : system.points id = .waiting) :
      Step system (.setActive id) ({ system with active := some (prepared id) }.move id .scanning)
  | scan {system : System} {id : ℕ} {outcome : Except Exc CommandResult}
      (here : system.points id = .scanning)
      (ran : ∀ native, outcome = .ok native → native.argv ≠ []) :
      Step system (.scan id outcome) (system.move id (scanned outcome))
  | readActive {system : System} {id : ℕ} {native : CommandResult}
      (here : system.points id = .attributing native) :
      Step system (.readActive id) (system.move id (.storing native (system.owner native)))
  | store {system : System} {id : ℕ} {native : CommandResult} {owner : String}
      (here : system.points id = .storing native owner) :
      Step system (.store id none)
        ({ system with root := (storeRawOutput sha256 system.root owner adapter.scannerId native).1
           }.move id
          (.stored native (storeRawOutput sha256 system.root owner adapter.scannerId native).2))
  | storeFails {system : System} {id : ℕ} {native : CommandResult} {owner : String} {exc : Exc}
      (here : system.points id = .storing native owner) :
      Step system (.store id (some exc)) (system.move id (.raised exc))
  | finish {system : System} {id : ℕ} {native : CommandResult} {ref : String} {env : AdapterEnv}
      (here : system.points id = .stored native ref) :
      Step system (.finish id env) (system.move id (finished adapter env native ref))

end Steps

/-- The system before any call: the attribute may be left over from earlier ones. -/
def System.start (active : Option JobName) (root : RawOutput) : System :=
  ⟨active, root, fun _ => .waiting⟩

variable {prepared : ℕ → JobName} {adapter : Adapter} {sha256 : PyStr → Digest 64}
  {system system' : System} {active : Option JobName} {root : RawOutput} {id : ℕ}
  {action : Action} {trace : List (System × Action)}

@[simp] lemma System.move_points_self (point : Point) : (system.move id point).points id = point :=
  Function.update_self ..

lemma System.move_points_ne {other : ℕ} (h : other ≠ id) (point : Point) :
    (system.move id point).points other = system.points other := Function.update_of_ne h ..

/-- A step leaves the other calls where they are. -/
lemma Step.others (h : Step prepared adapter sha256 system action system') {other : ℕ}
    (hother : other ≠ action.id) : system'.points other = system.points other := by
  cases h <;> exact System.move_points_ne hother _

/-- What `normalize` returns carries the reference that the store has answered. -/
lemma rawOutputRef_of_normalize {env : AdapterEnv} {native : CommandResult} {ref : String}
    {pair : Verdict × AdapterResult}
    (h : normalize { env with storeRawOutput := fun _ _ _ => .ok ref } native adapter = .ok pair) :
    pair.2.rawOutputRef = ref := by
  obtain ⟨verdict, text, detection, kind, hreport, -⟩ :=
    (@normalize_decides { env with storeRawOutput := fun _ _ _ => .ok ref } native adapter).reports
  rw [hreport] at h
  obtain ⟨built, hbuilt, hpair⟩ := Fallible.bind_eq_ok.1 h
  obtain ⟨hstored, -⟩ := result_eq_ok hbuilt
  cases hpair
  exact (Except.ok.inj hstored).symm

/-! ## Where a result lies -/

/-- Call `id` has read the attribute once, when the job was active. -/
def ReadFor (trace : List (System × Action)) (id : ℕ) (job : JobName) : Prop :=
  ∃ state, (state, Action.readActive id) ∈ trace ∧ state.active = some job ∧
    ∀ state', (state', Action.readActive id) ∈ trace → state' = state

/-- Call `id` has not read the attribute. -/
def Unread (trace : List (System × Action)) (id : ℕ) : Prop :=
  ∀ state, (state, Action.readActive id) ∉ trace

/-- What a call works on, against what it has read. -/
def Recorded (trace : List (System × Action)) (id : ℕ) : Point → Prop
  | .waiting | .scanning => Unread trace id
  | .attributing native => Unread trace id ∧ native.argv ≠ []
  | .storing _ owner => ∃ job, ReadFor trace id job ∧ owner = job.text
  | .stored _ ref => ∃ job name, ReadFor trace id job ∧ ref = directory job.text ++ name
  | .returned _ result =>
      ∃ job name, ReadFor trace id job ∧ result.rawOutputRef = directory job.text ++ name
  | .raised _ => True

lemma mem_snoc_iff {state : System} (h : action ≠ .readActive id) :
    (state, Action.readActive id) ∈ trace ++ [(system, action)] ↔
      (state, Action.readActive id) ∈ trace := by
  simp only [List.mem_append, List.mem_singleton, Prod.mk.injEq]
  constructor
  · rintro (hmem | ⟨-, rfl⟩)
    · exact hmem
    · exact absurd rfl h
  · exact .inl

lemma Unread.snoc (h : action ≠ .readActive id) (hunread : Unread trace id) :
    Unread (trace ++ [(system, action)]) id := by
  intro state
  rw [mem_snoc_iff h]
  exact hunread state

lemma ReadFor.snoc {job : JobName} (h : action ≠ .readActive id) (hread : ReadFor trace id job) :
    ReadFor (trace ++ [(system, action)]) id job := by
  obtain ⟨state, hmem, hactive, honly⟩ := hread
  refine ⟨state, (mem_snoc_iff h).2 hmem, hactive, fun state' hmem' => ?_⟩
  exact honly state' ((mem_snoc_iff h).1 hmem')

lemma Unread.read {job : JobName} (h : Unread trace id) (hactive : system.active = some job) :
    ReadFor (trace ++ [(system, .readActive id)]) id job := by
  refine ⟨system, by simp, hactive, fun state' hmem => ?_⟩
  rcases List.mem_append.1 hmem with hmem | hmem
  · exact absurd hmem (h state')
  · obtain ⟨rfl, -⟩ := Prod.mk.inj (List.mem_singleton.1 hmem)
    rfl

/-- A step of another kind keeps what is recorded. -/
lemma Recorded.snoc {point : Point} (h : action ≠ .readActive id)
    (hrecorded : Recorded trace id point) : Recorded (trace ++ [(system, action)]) id point := by
  cases point with
  | waiting => exact Unread.snoc h hrecorded
  | scanning => exact Unread.snoc h hrecorded
  | attributing native => exact ⟨hrecorded.1.snoc h, hrecorded.2⟩
  | storing native owner =>
      obtain ⟨job, hread, howner⟩ := hrecorded
      exact ⟨job, hread.snoc h, howner⟩
  | stored native ref =>
      obtain ⟨job, name, hread, href⟩ := hrecorded
      exact ⟨job, name, hread.snoc h, href⟩
  | returned verdict result =>
      obtain ⟨job, name, hread, href⟩ := hrecorded
      exact ⟨job, name, hread.snoc h, href⟩
  | raised exc => trivial

/-- The invariant of the runs. -/
structure Consistent (trace : List (System × Action)) (system : System) : Prop where
  recorded : ∀ id, Recorded trace id (system.points id)
  active : ∀ id, system.points id ≠ .waiting → system.active.isSome

/-- The step of a call keeps what is recorded of it. -/
lemma recorded_step (h : Consistent trace system)
    (hstep : Step prepared adapter sha256 system action system') :
    Recorded (trace ++ [(system, action)]) action.id (system'.points action.id) := by
  cases hstep with
  | @setActive id here =>
      have hrecorded := h.recorded id
      rw [here] at hrecorded
      simp only [Action.id, System.move_points_self]
      exact Unread.snoc (fun heq => by cases heq) hrecorded
  | @scan id outcome here ran =>
      have hrecorded := h.recorded id
      rw [here] at hrecorded
      simp only [Action.id, System.move_points_self]
      cases outcome with
      | ok native => exact ⟨Unread.snoc (fun heq => by cases heq) hrecorded, ran native rfl⟩
      | error exc => trivial
  | @readActive id native here =>
      have hrecorded := h.recorded id
      have hactive := h.active id (by simp [here])
      rw [here] at hrecorded
      obtain ⟨job, hjob⟩ := Option.isSome_iff_exists.1 hactive
      simp only [Action.id, System.move_points_self]
      refine ⟨job, hrecorded.1.read hjob, ?_⟩
      rw [System.owner, if_neg hrecorded.2, hjob]
      rfl
  | @store id native owner here =>
      have hrecorded := h.recorded id
      rw [here] at hrecorded
      obtain ⟨job, hread, rfl⟩ := hrecorded
      simp only [Action.id, System.move_points_self]
      exact ⟨job, _, hread.snoc fun heq => (by cases heq), rfl⟩
  | @storeFails id native owner exc here =>
      simp only [Action.id, System.move_points_self]
      trivial
  | @finish id native ref env here =>
      have hrecorded := h.recorded id
      rw [here] at hrecorded
      obtain ⟨job, name, hread, href⟩ := hrecorded
      simp only [Action.id, System.move_points_self, finished]
      split
      · next pair hpair =>
          refine ⟨job, name, hread.snoc fun heq => (by cases heq), ?_⟩
          rw [rawOutputRef_of_normalize hpair, href]
      · trivial

/-- No step makes the attribute empty, and the first step of a call sets it. -/
lemma active_step (h : Consistent trace system)
    (hstep : Step prepared adapter sha256 system action system') : system'.active.isSome := by
  cases hstep with
  | setActive here => rfl
  | @scan id outcome here ran => exact h.active id (by simp [here])
  | @readActive id native here => exact h.active id (by simp [here])
  | @store id native owner here => exact h.active id (by simp [here])
  | @storeFails id native owner exc here => exact h.active id (by simp [here])
  | @finish id native ref env here => exact h.active id (by simp [here])

lemma consistent_step (h : Consistent trace system)
    (hstep : Step prepared adapter sha256 system action system') :
    Consistent (trace ++ [(system, action)]) system' := by
  refine ⟨fun id => ?_, fun id _ => active_step h hstep⟩
  by_cases hid : id = action.id
  · subst hid
    exact recorded_step h hstep
  · rw [hstep.others hid]
    refine (h.recorded id).snoc ?_
    rintro rfl
    exact hid rfl

lemma consistent_of_run
    (run : Run (Step prepared adapter sha256) (.start active root) trace system) :
    Consistent trace system := by
  induction run with
  | nil => exact ⟨fun id state hmem => absurd hmem List.not_mem_nil, fun id h => absurd rfl h⟩
  | snoc _ step ih => exact consistent_step ih step

/-- The result of a call lies under the job that was active when the call read the attribute. -/
lemma liesUnder_of_run (run : Run (Step prepared adapter sha256) (.start active root) trace system)
    {verdict : Verdict} {result : AdapterResult}
    (hreturned : system.points id = .returned verdict result) (job : JobName) :
    LiesUnder result.rawOutputRef job ↔
      ∀ state, (state, Action.readActive id) ∈ trace → state.active = some job := by
  have hrecorded := (consistent_of_run run).recorded id
  rw [hreturned] at hrecorded
  obtain ⟨owner, name, ⟨state, hmem, hactive, honly⟩, href⟩ := hrecorded
  rw [href, liesUnder_iff]
  constructor
  · rintro rfl state' hmem'
    rw [honly state' hmem', hactive]
  · intro h
    exact Option.some.inj (hactive.symm.trans (h state hmem))

/-- Every result lies in the directory of its own job exactly when every call that returns has read
its own job from the attribute. -/
theorem attributed_iff (run : Run (Step prepared adapter sha256)
    (.start active root) trace system) :
    (∀ id verdict result, system.points id = .returned verdict result →
        LiesUnder result.rawOutputRef (prepared id)) ↔
      ∀ taken ∈ trace, ∀ id, taken.2 = .readActive id → (system.points id).hasReturned = true →
        taken.1.active = some (prepared id) := by
  constructor
  · rintro h ⟨state, act⟩ hmem id rfl hreturned
    cases hpoint : system.points id with
    | returned verdict result =>
        exact (liesUnder_of_run run hpoint _).1 (h id verdict result hpoint) state hmem
    | _ => simp [hpoint, Point.hasReturned] at hreturned
  · intro h id verdict result hpoint
    refine (liesUnder_of_run run hpoint _).2 fun state hmem => ?_
    exact h _ hmem id rfl (by simp [hpoint, Point.hasReturned])

/-! ### Two jobs at a time -/

/-- The first call is for one job, all others are for another one. -/
def twoJobs (id : ℕ) : JobName := if id = 0 then ⟨"job-a", by decide⟩ else ⟨"job-b", by decide⟩

/-- ClamAV finds nothing. -/
def cleanRun : CommandResult where
  argv := [PyStr.ofString "clamscan"]
  exitCode := 0
  stdout := []
  stderr := []
  timedOut := false
  isolated := true
  isolationFailed := false

/-- A step of two calls on a ClamAV adapter, under a hash that is always the same. -/
abbrev SampleStep : System → Action → System → Prop :=
  Step twoJobs .clamav fun _ => Hashes.empty.sha256

/-- Nothing has been stored. -/
def noOutput : RawOutput := fun _ _ => none

/-- The name of the file that is stored of a clean run. -/
def cleanFile : String := fileName (fun _ => Hashes.empty.sha256) Adapter.clamav.scannerId cleanRun

/-- A call that scans may go on to its end without another step in between. -/
lemma clean_completes {job : JobName} (here : system.points id = .scanning)
    (hactive : system.active = some job) :
    ∃ trace system', Run SampleStep system trace system' ∧ ∃ verdict result,
      system'.points id = .returned verdict result ∧
        result.rawOutputRef = directory job.text ++ cleanFile := by
  have hargv : ∀ native, (.ok cleanRun : Except Exc CommandResult) = .ok native →
      native.argv ≠ [] := by
    intro native h
    cases h
    decide
  obtain ⟨scanned, hscan, hscanned, hjob⟩ : ∃ next,
      SampleStep system (.scan id (.ok cleanRun)) next ∧
      next.points id = .attributing cleanRun ∧ next.active = some job :=
    ⟨_, .scan here hargv, System.move_points_self _, hactive⟩
  have howner : scanned.owner cleanRun = job.text := by
    rw [System.owner, if_neg (by decide), hjob]
    rfl
  obtain ⟨read, hread, hstoring⟩ : ∃ next, SampleStep scanned (.readActive id) next ∧
      next.points id = .storing cleanRun job.text :=
    ⟨_, .readActive hscanned, by rw [System.move_points_self, howner]⟩
  obtain ⟨kept, hstore, hstored⟩ : ∃ next, SampleStep read (.store id none) next ∧
      next.points id = .stored cleanRun (directory job.text ++ cleanFile) :=
    ⟨_, .store hstoring, System.move_points_self _⟩
  have hfinish : SampleStep kept (.finish id plainEnv) _ := .finish hstored
  exact ⟨_, _, (((Run.nil.snoc hscan).snoc hread).snoc hstore).snoc hfinish, _, _,
    System.move_points_self _, rfl⟩

theorem alone_attributed :
    ∃ trace system, Run SampleStep (.start none noOutput) trace system ∧
      ((∀ id verdict result, system.points id = .returned verdict result →
          LiesUnder result.rawOutputRef (twoJobs id)) ↔
        ∀ taken ∈ trace, ∀ id, taken.2 = .readActive id → (system.points id).hasReturned = true →
          taken.1.active = some (twoJobs id)) := by
  obtain ⟨first, hset, hpoint, hactive⟩ : ∃ next, SampleStep (.start none noOutput)
      (.setActive 0) next ∧ next.points 0 = .scanning ∧ next.active = some (twoJobs 0) :=
    ⟨_, .setActive rfl, rfl, rfl⟩
  obtain ⟨trace, system, hrun, -⟩ := clean_completes hpoint hactive
  exact ⟨_, _, (Run.nil.snoc hset).trans hrun, attributed_iff ((Run.nil.snoc hset).trans hrun)⟩

/-- The second call sets the attribute while the first one scans. -/
theorem overlapping_misattributed :
    ¬∀ trace system, Run SampleStep (.start none noOutput) trace system →
      ∀ id verdict result, system.points id = .returned verdict result →
        LiesUnder result.rawOutputRef (twoJobs id) := by
  intro h
  have hfirst : SampleStep (.start none noOutput) (.setActive 0) _ := .setActive rfl
  obtain ⟨both, hsecond, hpoint, hactive⟩ : ∃ next, SampleStep
      ({ System.start none noOutput with active := some (twoJobs 0) }.move 0 .scanning)
      (.setActive 1) next ∧ next.points 0 = .scanning ∧ next.active = some (twoJobs 1) :=
    ⟨_, .setActive rfl, rfl, rfl⟩
  obtain ⟨trace, system, hrun, verdict, result, hreturned, href⟩ := clean_completes hpoint hactive
  have hlies := h _ _ (((Run.nil.snoc hfirst).snoc hsecond).trans hrun) 0 verdict result hreturned
  rw [href, liesUnder_iff] at hlies
  exact absurd hlies (by decide)

/-! ## Calls that keep apart -/

/-- The call is between setting the attribute and reading it. -/
def Point.relying : Point → Bool
  | .scanning | .attributing _ => true
  | _ => false

/-- The attribute is not set to another job while a call relies on it. -/
def Apart (prepared : ℕ → JobName) (taken : System × Action) : Prop :=
  ∀ id other, taken.2 = .setActive id → (taken.1.points other).relying = true →
    prepared other = prepared id

/-- In a run that keeps calls for different jobs apart, every call reads its own job. -/
theorem attributed_of_apart
    (run : Run (Step prepared adapter sha256) (.start active root) trace system)
    (hapart : ∀ taken ∈ trace, Apart prepared taken) :
    ∀ id verdict result, system.points id = .returned verdict result →
      LiesUnder result.rawOutputRef (prepared id) := by
  suffices h : (∀ id, (system.points id).relying = true → system.active = some (prepared id)) ∧
      ∀ taken ∈ trace, ∀ id, taken.2 = .readActive id → taken.1.active = some (prepared id) from
    (attributed_iff run).2 fun taken hmem id hread _ => h.2 taken hmem id hread
  induction run with
  | nil => exact ⟨fun id h => (by cases h), fun taken hmem => absurd hmem List.not_mem_nil⟩
  | @snoc trace before after act run step ih =>
      obtain ⟨hrelying, hreads⟩ := ih fun taken hmem => hapart taken (List.mem_append_left _ hmem)
      have hlast := hapart (before, act) (List.mem_append_right _ (List.mem_singleton_self _))
      refine ⟨fun id h => ?_, fun taken hmem id hread => ?_⟩
      · by_cases hid : id = act.id
        · subst hid
          cases step with
          | setActive here => rfl
          | scan here ran => exact hrelying _ (by simp [Action.id, here, Point.relying])
          | readActive here => simp [Action.id, Point.relying] at h
          | store here => simp [Action.id, Point.relying] at h
          | storeFails here => simp [Action.id, Point.relying] at h
          | finish here =>
              simp only [Action.id, System.move_points_self, finished] at h
              split at h <;> simp [Point.relying] at h
        · rw [step.others hid] at h
          cases step with
          | setActive here => rw [hlast _ id rfl h]; rfl
          | _ => exact hrelying id h
      · rcases List.mem_append.1 hmem with hmem | hmem
        · exact hreads taken hmem id hread
        · obtain rfl := List.mem_singleton.1 hmem
          obtain rfl : act = .readActive id := hread
          cases step with
          | readActive here => exact hrelying id (by simp [here, Point.relying])

end SharedAdapter

end AVBox
