import AVBox.Application.Stages

/-!
# The correlation service

`CorrelationService.process` of `correlation/service.py` asks the provider about the submitted
object and every derived one, in one pass.  The pass counts the objects it has looked at and the
similarity queries it has spent; both counters start afresh with every call.

`plannedCalls` is the list of queries a pass makes, as a function of the objects alone;
`process_calls` says that this is what the pass adds to the log of the host.
-/

namespace AVBox

open Program

namespace CorrelationService

/-! ## The pass -/

/-- The settings of the service and the outcomes of its provider. -/
structure CorrelationEnv where
  providerId : String
  providerVersion : String
  maxObjects : ℕ
  maxSimilarityQueries : ℕ
  totalDeadline : ℕ
  /-- The time since the pass of a job started, when it comes to the object at an index. -/
  elapsed : JobId → ℕ → ℕ
  /-- What `provider.correlate` yields for the object at an index. -/
  correlate : JobId → ℕ → Except Exc CorrelationResult

/-- Where a context lives that the pass fills in. -/
inductive ContextRef
  | root
  | derived (index : ℕ)
  deriving DecidableEq, Repr

/-- One entry of the list of objects. -/
structure Target where
  context : ContextRef
  artifact : InputArtifact
  analyzers : List AnalyzerResult
  deriving DecidableEq

/-- `_artifact`: an identity without all four digests cannot be asked about. -/
def artifactOf : ObjectRef → Option InputArtifact
  | .artifact value => some value
  | .identity value => do
      let blake3 ← value.blake3
      let sha1 ← value.sha1
      let md5 ← value.md5
      return {
        hashes := ⟨value.sha256, blake3, sha1, md5⟩
        byteSize := value.size
        filename := (value.filename.filter (· ≠ "")).getD "derived-object"
        submittedFilename := none
        mediaType := (value.mediaType.filter (· ≠ "")).getD "application/octet-stream"
        source := "avbox-derived-object" }
  | .other => none

/-- The submitted object first, then the derived objects in their order. -/
def targets (job : ScanJob) : List Target :=
  ⟨.root, job.inputArtifact, job.analyzerResults⟩ ::
    job.derivedObjects.zipIdx.filterMap fun (child, index) =>
      (artifactOf child.object).map fun artifact =>
        ⟨.derived index, artifact, child.analyzerResults⟩

/-- `_ssdeep`: the first fingerprint among the observations. -/
def ssdeep (analyzers : List AnalyzerResult) : Option String :=
  (analyzers.flatMap (·.observations)).findSome? fun observation =>
    if observation.observationType = "similarity.ssdeep" then
      match observation.value with
      | .dict fingerprint => fingerprint
      | .other => none
    else none

/-- `if fingerprint`: an empty string counts as none. -/
def carries (fingerprint : Option String) : Bool := fingerprint.any (· ≠ "")

/-- The fingerprint that goes out once the similarity budget has been looked at. -/
def affordable (env : CorrelationEnv) (used : ℕ) (fingerprint : Option String) : Option String :=
  if carries fingerprint && used ≥ env.maxSimilarityQueries then none else fingerprint

/-- `_skipped`. -/
def skipped (env : CorrelationEnv) (reason : String) : CorrelationResult :=
  ⟨env.providerId, env.providerVersion, .partially, some reason⟩

/-- Write a context back. -/
def setContext (ref : ContextRef) (context : PreservationContext) (job : ScanJob) : ScanJob :=
  match ref with
  | .root => { job with preservationContext := context }
  | .derived index =>
      { job with
        derivedObjects := job.derivedObjects.modify index fun child =>
          { child with preservationContext := context } }

/-- `provider.correlate`, which leaves a trace in the log of the host. -/
def callProvider (env : CorrelationEnv) (id : JobId) (index : ℕ) (artifact : InputArtifact)
    (fingerprint : Option String) : EStateM Exc ScanState CorrelationResult := do
  onHost <| modify fun host =>
    { host with correlateCalls := host.correlateCalls ++ [⟨id, artifact, fingerprint⟩] }
  lift (env.correlate id index)

/-- The loop over the objects, from an index on and with some similarity queries spent. -/
def processFrom (env : CorrelationEnv) (id : JobId) :
    ℕ → ℕ → List Target → EStateM Exc ScanState Unit
  | _, _, [] => pure ()
  | index, used, target :: rest =>
      if index ≥ env.maxObjects then do
        updateJob <| setContext target.context
          ⟨.available, some (skipped env "max_correlated_objects_per_job exhausted")⟩
        processFrom env id (index + 1) used rest
      else if env.elapsed id index ≥ env.totalDeadline then do
        updateJob <| setContext target.context
          ⟨.available, some (skipped env "total_correlation_deadline exhausted")⟩
        processFrom env id (index + 1) used rest
      else do
        let fingerprint := affordable env used (ssdeep target.analyzers)
        let result ← callProvider env id index target.artifact fingerprint
        updateJob <| setContext target.context
          ⟨if result.state = .unavailable then .notAvailable else .available, some result⟩
        processFrom env id (index + 1) (if carries fingerprint then used + 1 else used) rest

/-- `process`. -/
def process (env : CorrelationEnv) : EStateM Exc ScanState Unit := do
  let job := (← get).job
  processFrom env job.jobId 0 0 (targets job)

/-! ## The queries of a pass -/

/-- The queries a pass makes for the objects from an index on.  A query that raises is the last. -/
def plannedFrom (env : CorrelationEnv) (id : JobId) : ℕ → ℕ → List Target → List CorrelateCall
  | _, _, [] => []
  | index, used, target :: rest =>
      if index ≥ env.maxObjects then plannedFrom env id (index + 1) used rest
      else if env.elapsed id index ≥ env.totalDeadline then plannedFrom env id (index + 1) used rest
      else
        let fingerprint := affordable env used (ssdeep target.analyzers)
        ⟨id, target.artifact, fingerprint⟩ ::
          match env.correlate id index with
          | .ok _ =>
              plannedFrom env id (index + 1) (if carries fingerprint then used + 1 else used) rest
          | .error _ => []

/-- The queries the pass of a job makes. -/
def plannedCalls (env : CorrelationEnv) (job : ScanJob) : List CorrelateCall :=
  plannedFrom env job.jobId 0 0 (targets job)

/-- Queries that carry a fingerprint. -/
def similarityCalls (calls : List CorrelateCall) : List CorrelateCall :=
  calls.filter fun call => carries call.fingerprint

section Pass

variable (env : CorrelationEnv)

/-- A pass never asks about more objects than its budget allows. -/
lemma plannedFrom_length_le (id : JobId) (index used : ℕ) (objects : List Target) :
    (plannedFrom env id index used objects).length ≤ env.maxObjects - index := by
  induction objects generalizing index used with
  | nil => simp [plannedFrom]
  | cons target rest ih =>
      rw [plannedFrom]
      split
      · have hrest := ih (index + 1) used
        omega
      · split
        · have hrest := ih (index + 1) used
          omega
        · rw [List.length_cons]
          split
          · next h _ _ _ =>
              have hrest := ih (index + 1)
                (if carries (affordable env used (ssdeep target.analyzers)) then used + 1 else used)
              omega
          · simp only [List.length_nil]
            omega

/-- Out of the budget nothing is affordable. -/
lemma carries_affordable (used : ℕ) (fingerprint : Option String) :
    carries (affordable env used fingerprint) = true ↔
      carries fingerprint = true ∧ used < env.maxSimilarityQueries := by
  unfold affordable
  cases hcarries : carries fingerprint <;>
    by_cases hused : used < env.maxSimilarityQueries
  all_goals simp [hcarries, hused, Nat.not_le.2, Nat.le_of_not_lt]
  all_goals simp [carries]

lemma length_similarityCalls_cons (call : CorrelateCall) (calls : List CorrelateCall) :
    (similarityCalls (call :: calls)).length =
      (similarityCalls calls).length + if carries call.fingerprint then 1 else 0 := by
  simp only [similarityCalls, ← List.countP_eq_length_filter, List.countP_cons]

/-- Nor does it spend more similarity queries than it may. -/
lemma similarityCalls_plannedFrom_length_le (id : JobId) (index used : ℕ)
    (objects : List Target) :
    (similarityCalls (plannedFrom env id index used objects)).length ≤
      env.maxSimilarityQueries - used := by
  induction objects generalizing index used with
  | nil => simp [plannedFrom, similarityCalls]
  | cons target rest ih =>
      rw [plannedFrom]
      split
      · exact ih (index + 1) used
      split
      · exact ih (index + 1) used
      rw [length_similarityCalls_cons]
      by_cases hsent : carries (affordable env used (ssdeep target.analyzers)) = true
      · have hused := ((carries_affordable env _ _).1 hsent).2
        have hrest := ih (index + 1) (used + 1)
        rw [if_pos hsent, if_pos hsent]
        cases env.correlate id index with
        | ok result => exact Nat.le_trans (Nat.succ_le_succ hrest) (by omega)
        | error exc => exact Nat.le_trans (Nat.le_of_eq (Nat.zero_add 1)) (by omega)
      · rw [if_neg hsent, if_neg hsent, Nat.add_zero]
        cases env.correlate id index with
        | ok result => exact ih (index + 1) used
        | error exc => exact Nat.zero_le _

/-- The budget of one pass. -/
lemma plannedCalls_le (job : ScanJob) :
    (plannedCalls env job).length ≤ env.maxObjects ∧
      (similarityCalls (plannedCalls env job)).length ≤ env.maxSimilarityQueries :=
  ⟨plannedFrom_length_le env job.jobId 0 0 (targets job),
    similarityCalls_plannedFrom_length_le env job.jobId 0 0 (targets job)⟩

/-- The objects that a pass comes to before its deadline. -/
def inTime (id : JobId) (index : ℕ) (objects : List Target) : List Target :=
  (objects.zipIdx index).filterMap fun item =>
    if env.elapsed id item.2 < env.totalDeadline then some item.1 else none

/-- The objects that a fingerprint is known of. -/
def fingerprinted (objects : List Target) : List Target :=
  objects.filter fun target => carries (ssdeep target.analyzers)

lemma length_fingerprinted_cons (target : Target) (objects : List Target) :
    (fingerprinted (target :: objects)).length =
      (fingerprinted objects).length + if carries (ssdeep target.analyzers) then 1 else 0 := by
  simp only [fingerprinted, ← List.countP_eq_length_filter, List.countP_cons]

lemma inTime_cons_of_lt {id : JobId} {index : ℕ} {target : Target} {rest : List Target}
    (h : env.elapsed id index < env.totalDeadline) :
    inTime env id index (target :: rest) = target :: inTime env id (index + 1) rest := by
  rw [inTime, List.zipIdx_cons, List.filterMap_cons, if_pos h]
  rfl

lemma inTime_cons_of_le {id : JobId} {index : ℕ} {target : Target} {rest : List Target}
    (h : env.totalDeadline ≤ env.elapsed id index) :
    inTime env id index (target :: rest) = inTime env id (index + 1) rest := by
  rw [inTime, List.zipIdx_cons, List.filterMap_cons, if_neg (Nat.not_lt.2 h)]
  rfl

/-- Time does not run backwards: past the deadline it stays. -/
lemma inTime_of_le {id : JobId} {index : ℕ} (objects : List Target)
    (hclock : Monotone (env.elapsed id)) (h : env.totalDeadline ≤ env.elapsed id index) :
    inTime env id index objects = [] := by
  induction objects generalizing index with
  | nil => rfl
  | cons target rest ih =>
      rw [inTime_cons_of_le env h]
      exact ih (h.trans (hclock (Nat.le_succ index)))

/-- A pass asks about no other objects. -/
lemma plannedFrom_inTime_le (id : JobId) (index used : ℕ) (objects : List Target) :
    (plannedFrom env id index used objects).length ≤ (inTime env id index objects).length ∧
      (similarityCalls (plannedFrom env id index used objects)).length ≤
        (fingerprinted (inTime env id index objects)).length := by
  induction objects generalizing index used with
  | nil => exact ⟨Nat.le_refl _, Nat.le_refl _⟩
  | cons target rest ih =>
      have hlater : (inTime env id (index + 1) rest).length ≤
            (inTime env id index (target :: rest)).length ∧
          (fingerprinted (inTime env id (index + 1) rest)).length ≤
            (fingerprinted (inTime env id index (target :: rest))).length := by
        rcases Nat.lt_or_ge (env.elapsed id index) env.totalDeadline with htime | htime
        · rw [inTime_cons_of_lt env htime, length_fingerprinted_cons]
          exact ⟨Nat.le_succ _, Nat.le_add_right _ _⟩
        · rw [inTime_cons_of_le env htime]
          exact ⟨Nat.le_refl _, Nat.le_refl _⟩
      rw [plannedFrom]
      split
      · exact ⟨(ih _ _).1.trans hlater.1, (ih _ _).2.trans hlater.2⟩
      split
      · exact ⟨(ih _ _).1.trans hlater.1, (ih _ _).2.trans hlater.2⟩
      · next htime =>
          have hsent : (if carries (affordable env used (ssdeep target.analyzers)) then 1 else 0) ≤
              if carries (ssdeep target.analyzers) then 1 else 0 := by
            by_cases h : carries (affordable env used (ssdeep target.analyzers)) = true
            · rw [if_pos h, if_pos ((carries_affordable env _ _).1 h).1]
            · rw [if_neg h]
              exact Nat.zero_le _
          rw [inTime_cons_of_lt env (Nat.lt_of_not_le htime), length_similarityCalls_cons,
            length_fingerprinted_cons]
          cases env.correlate id index with
          | error exc =>
              exact ⟨Nat.le_add_left 1 _, Nat.add_le_add (Nat.zero_le _) hsent⟩
          | ok result =>
              exact ⟨Nat.succ_le_succ (ih _ _).1, Nat.add_le_add (ih _ _).2 hsent⟩

/-- A call that returns has an answer. -/
lemma callProvider_eq_ok {id : JobId} {index : ℕ} {artifact : InputArtifact}
    {fingerprint : Option String} {result : CorrelationResult} {s t : ScanState}
    (h : callProvider env id index artifact fingerprint s = .ok result t) :
    env.correlate id index = .ok result := by
  unfold callProvider at h
  obtain ⟨⟨⟩, u, -, hanswer⟩ := bind_eq_ok.1 h
  cases hcorrelate : env.correlate id index with
  | error exc =>
      rw [hcorrelate] at hanswer
      cases hanswer
  | ok answer =>
      rw [hcorrelate] at hanswer
      obtain ⟨rfl, -⟩ := EStateM.Result.ok.inj hanswer
      rfl

/-- An object that is asked about. -/
lemma plannedFrom_cons_of_ok {id : JobId} {index used : ℕ} {target : Target} {rest : List Target}
    {result : CorrelationResult} (hindex : index < env.maxObjects)
    (htime : env.elapsed id index < env.totalDeadline)
    (hanswer : env.correlate id index = .ok result) :
    plannedFrom env id index used (target :: rest) =
      ⟨id, target.artifact, affordable env used (ssdeep target.analyzers)⟩ ::
        plannedFrom env id (index + 1)
          (if carries (affordable env used (ssdeep target.analyzers)) then used + 1 else used)
          rest := by
  rw [plannedFrom, if_neg (Nat.not_le.2 hindex), if_neg (Nat.not_le.2 htime), hanswer]

/-- A pass that returns has asked about as many objects as the deadline and the budget let it. -/
lemma plannedFrom_length_of_ok {id : JobId} {index used : ℕ} {objects : List Target}
    {s t : ScanState} (hclock : Monotone (env.elapsed id))
    (h : processFrom env id index used objects s = .ok () t) :
    (plannedFrom env id index used objects).length =
      min (env.maxObjects - index) (inTime env id index objects).length := by
  induction objects generalizing index used s with
  | nil => simp [plannedFrom, inTime]
  | cons target rest ih =>
      rw [processFrom] at h
      split at h
      · next hspent =>
          obtain ⟨⟨⟩, u, -, hrest⟩ := bind_eq_ok.1 h
          rw [plannedFrom, if_pos hspent, ih hrest]
          omega
      · next hspent =>
          split at h
          · next htime =>
              obtain ⟨⟨⟩, u, -, hrest⟩ := bind_eq_ok.1 h
              rw [plannedFrom, if_neg hspent, if_pos htime, ih hrest, inTime_cons_of_le env htime,
                inTime_of_le env rest hclock (htime.trans (hclock (Nat.le_succ index)))]
              simp
          · next htime =>
              obtain ⟨result, u, hcall, hrest⟩ := bind_eq_ok.1 h
              obtain ⟨⟨⟩, v, -, hrest⟩ := bind_eq_ok.1 hrest
              rw [plannedFrom_cons_of_ok env (Nat.lt_of_not_le hspent) (Nat.lt_of_not_le htime)
                (callProvider_eq_ok env hcall), inTime_cons_of_lt env (Nat.lt_of_not_le htime),
                List.length_cons, List.length_cons, ih hrest]
              omega

/-- If it could ask about all of them, it has sent as many fingerprints as its budget let it. -/
lemma similarityCalls_length_of_ok {id : JobId} {index used : ℕ} {objects : List Target}
    {s t : ScanState} (hclock : Monotone (env.elapsed id))
    (hfits : index + (inTime env id index objects).length ≤ env.maxObjects)
    (h : processFrom env id index used objects s = .ok () t) :
    (similarityCalls (plannedFrom env id index used objects)).length =
      min (env.maxSimilarityQueries - used)
        (fingerprinted (inTime env id index objects)).length := by
  induction objects generalizing index used s with
  | nil => simp [plannedFrom, inTime, similarityCalls, fingerprinted]
  | cons target rest ih =>
      by_cases hspent : index ≥ env.maxObjects
      · have hnone : inTime env id index (target :: rest) = [] :=
          List.eq_nil_of_length_eq_zero (by omega)
        have hplanned : plannedFrom env id index used (target :: rest) = [] := by
          refine List.eq_nil_of_length_eq_zero ?_
          have hle := plannedFrom_length_le env id index used (target :: rest)
          omega
        simp [hnone, hplanned, similarityCalls, fingerprinted]
      rw [processFrom, if_neg hspent] at h
      split at h
      · next htime =>
          obtain ⟨⟨⟩, u, -, hrest⟩ := bind_eq_ok.1 h
          have hnone := inTime_of_le env rest hclock (htime.trans (hclock (Nat.le_succ index)))
          rw [plannedFrom, if_neg hspent, if_pos htime, inTime_cons_of_le env htime]
          exact ih (by rw [hnone, List.length_nil]; omega) hrest
      · next htime =>
          obtain ⟨result, u, hcall, hrest⟩ := bind_eq_ok.1 h
          obtain ⟨⟨⟩, v, -, hrest⟩ := bind_eq_ok.1 hrest
          rw [inTime_cons_of_lt env (Nat.lt_of_not_le htime), List.length_cons] at hfits
          have hlater := ih (by omega) hrest
          rw [plannedFrom_cons_of_ok env (Nat.lt_of_not_le hspent) (Nat.lt_of_not_le htime)
            (callProvider_eq_ok env hcall), inTime_cons_of_lt env (Nat.lt_of_not_le htime)]
          have hcarries := carries_affordable env used (ssdeep target.analyzers)
          rw [length_similarityCalls_cons, length_fingerprinted_cons, hlater]
          by_cases hknown : carries (ssdeep target.analyzers) = true
          · by_cases hused : used < env.maxSimilarityQueries
            · rw [if_pos (hcarries.2 ⟨hknown, hused⟩), if_pos (hcarries.2 ⟨hknown, hused⟩),
                if_pos hknown]
              omega
            · rw [if_neg fun h => hused (hcarries.1 h).2, if_neg fun h => hused (hcarries.1 h).2]
              omega
          · rw [if_neg fun h => hknown (hcarries.1 h).1, if_neg fun h => hknown (hcarries.1 h).1,
              if_neg hknown]
            rfl

/-! ## What a pass changes -/

/-- A derived object without its context. -/
def withoutContext (child : DerivedObject) : DerivedObject :=
  { child with preservationContext := .empty }

/-- A pass fills in contexts and adds to the log. -/
structure PassFrame (calls : List CorrelateCall) (s s' : ScanState) : Prop where
  job : ∃ context derived, s'.job =
    { s.job with preservationContext := context, derivedObjects := derived } ∧
      derived.map withoutContext = s.job.derivedObjects.map withoutContext
  host : s'.host = { s.host with correlateCalls := s.host.correlateCalls ++ calls }

lemma PassFrame.refl (s : ScanState) : PassFrame [] s s :=
  ⟨⟨_, _, rfl, rfl⟩, by simp⟩

lemma PassFrame.trans {calls calls' : List CorrelateCall} {s t u : ScanState}
    (hst : PassFrame calls s t) (htu : PassFrame calls' t u) :
    PassFrame (calls ++ calls') s u := by
  obtain ⟨⟨context, derived, hjob, hderived⟩, hhost⟩ := hst
  obtain ⟨⟨context', derived', hjob', hderived'⟩, hhost'⟩ := htu
  refine ⟨⟨context', derived', by rw [hjob', hjob], ?_⟩, by rw [hhost', hhost]; simp⟩
  rw [hderived', hjob]
  exact hderived

lemma targets_withoutContext (job : ScanJob) :
    targets { job with derivedObjects := job.derivedObjects.map withoutContext } =
      targets job := by
  simp only [targets, List.zipIdx_map, List.filterMap_map]
  rfl

/-- A pass looks at the same objects before and after. -/
lemma PassFrame.targets {calls : List CorrelateCall} {s t : ScanState} (h : PassFrame calls s t) :
    targets t.job = targets s.job := by
  obtain ⟨⟨context, derived, hjob, hderived⟩, -⟩ := h
  rw [← targets_withoutContext t.job, ← targets_withoutContext s.job, hjob]
  change CorrelationService.targets { s.job with
    derivedObjects := derived.map withoutContext
    preservationContext := context } = _
  rw [hderived]
  rfl

/-- Changing one element in a way that `g` does not see. -/
lemma map_modify_of_comp {α β : Type} {f : α → α} {g : α → β} (h : ∀ a, g (f a) = g a)
    (items : List α) (index : ℕ) : (items.modify index f).map g = items.map g := by
  apply List.ext_getElem?
  intro i
  rw [List.getElem?_map, List.getElem?_map, List.getElem?_modify]
  cases items[i]? with
  | none => rfl
  | some a =>
      by_cases hi : index = i <;> simp [hi, h]

lemma setContext_frame (ref : ContextRef) (context : PreservationContext) (s : ScanState) :
    PassFrame [] s { s with job := setContext ref context s.job } := by
  refine ⟨?_, by simp⟩
  cases ref with
  | root => exact ⟨context, _, rfl, rfl⟩
  | derived index =>
      refine ⟨_, _, rfl, ?_⟩
      refine map_modify_of_comp ?_ _ _
      intro child
      rfl

lemma callProvider_frame (id : JobId) (index : ℕ) (artifact : InputArtifact)
    (fingerprint : Option String) (s : ScanState) :
    PassFrame [⟨id, artifact, fingerprint⟩] s
      (final (callProvider env id index artifact fingerprint) s) := by
  unfold callProvider
  cases hcorrelate : env.correlate id index <;> exact ⟨⟨_, _, rfl, rfl⟩, rfl⟩

lemma callProvider_apply (id : JobId) (index : ℕ) (artifact : InputArtifact)
    (fingerprint : Option String) (s : ScanState) :
    callProvider env id index artifact fingerprint s =
      match env.correlate id index with
      | .ok result => .ok result (final (callProvider env id index artifact fingerprint) s)
      | .error e => .error e (final (callProvider env id index artifact fingerprint) s) := by
  unfold callProvider
  cases hcorrelate : env.correlate id index <;> rfl

/-- The loop makes the planned queries and fills in contexts, however it ends. -/
lemma processFrom_frame (id : JobId) (index used : ℕ) (objects : List Target) (s : ScanState) :
    PassFrame (plannedFrom env id index used objects) s
      (final (processFrom env id index used objects) s) := by
  induction objects generalizing index used s with
  | nil => exact .refl s
  | cons target rest ih =>
      rw [plannedFrom, processFrom]
      split
      · exact (setContext_frame _ _ s).trans (ih (index + 1) used _)
      split
      · exact (setContext_frame _ _ s).trans (ih (index + 1) used _)
      set fingerprint := affordable env used (ssdeep target.analyzers)
      have hcall := callProvider_frame env id index target.artifact fingerprint s
      have hrun := callProvider_apply env id index target.artifact fingerprint s
      cases hcorrelate : env.correlate id index with
      | error e =>
          rw [hcorrelate] at hrun
          rw [final_bind_of_error hrun]
          exact hcall
      | ok result =>
          rw [hcorrelate] at hrun
          rw [final_bind_of_ok hrun]
          refine hcall.trans ?_
          exact (setContext_frame target.context _ _).trans (ih (index + 1) _ _)

/-- `process` makes the planned queries and fills in contexts, however it ends. -/
lemma process_frame (s : ScanState) :
    PassFrame (plannedCalls env s.job) s (final (process env) s) :=
  processFrom_frame env s.job.jobId 0 0 (targets s.job) s

open ScanService in
/-- A pass stays in the frame of the correlation stage. -/
lemma process_correlationFrame (sha256 : Bytes → Digest 64) (s : ScanState) :
    CorrelationFrame sha256 s (final (process env) s) := by
  obtain ⟨⟨context, derived, hjob, hderived⟩, hhost⟩ := process_frame env s
  have hresults : derived.map (·.scannerResults) =
      s.job.derivedObjects.map (·.scannerResults) := by
    have hmap := congrArg (List.map (·.scannerResults)) hderived
    rwa [List.map_map, List.map_map] at hmap
  refine ⟨⟨?_, ?_, ?_, ?_, fun _ _ => ?_, fun hsound => ?_, Nat.le_of_eq ?_⟩, ?_, ?_, ?_⟩
  · rw [hjob]
  · rw [hjob]
  · rw [hjob]
  · rw [hjob]
  · rw [hhost]
  · rw [hhost]
    exact hsound
  · rw [hhost]
  · rw [hjob]
  · rw [hjob]
  · rw [hjob]
    exact hresults

end Pass

end CorrelationService

end AVBox
