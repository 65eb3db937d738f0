import AVBox.Application.Scanning

/-!
# What the stages of a scan may do

Each stage of `execute_queued` has a frame: what a run of it leaves alone, however it ends.  The
scanners are proved to stay in theirs.  A late stage enters the theorems about whole runs as a
`StageOutcome`: any effect within its frame, and any exception or none.

`StagesReturn` is the condition that no stage raises, on the outcomes alone.
-/

namespace AVBox

open Program

namespace ScanService

/-! ## The frame of the scanners -/

/-- The scanners append results to the job and write the scanner table. -/
structure ScannerFrame (s s' : ScanState) : Prop where
  jobId : s'.job.jobId = s.job.jobId
  status : s'.job.status = s.job.status
  inputArtifact : s'.job.inputArtifact = s.job.inputArtifact
  requested : s'.job.requestedScanners = s.job.requestedScanners
  derivedObjects : s'.job.derivedObjects = s.job.derivedObjects
  preservationContext : s'.job.preservationContext = s.job.preservationContext
  scannerResults : s.job.scannerResults <+: s'.job.scannerResults
  host : ∃ runtime, s'.host = { s.host with scannerRuntime := runtime }

lemma ScannerFrame.refl (s : ScanState) : ScannerFrame s s :=
  ⟨rfl, rfl, rfl, rfl, rfl, rfl, List.prefix_rfl, s.host.scannerRuntime, rfl⟩

lemma ScannerFrame.trans (s t u : ScanState) (hst : ScannerFrame s t) (htu : ScannerFrame t u) :
    ScannerFrame s u := by
  obtain ⟨runtime, ht⟩ := hst.host
  obtain ⟨runtime', hu⟩ := htu.host
  exact ⟨htu.jobId.trans hst.jobId, htu.status.trans hst.status,
    htu.inputArtifact.trans hst.inputArtifact, htu.requested.trans hst.requested,
    htu.derivedObjects.trans hst.derivedObjects,
    htu.preservationContext.trans hst.preservationContext,
    hst.scannerResults.trans htu.scannerResults, runtime', by rw [hu, ht]⟩

lemma moves_saveScannerStatus (fault : Option Exc) (status : ScannerRuntimeStatus) :
    Moves ScannerFrame (onHost (JobService.saveScannerStatus fault status)) := by
  refine Moves.zoom fun s => ?_
  cases fault
  · exact ⟨rfl, rfl, rfl, rfl, rfl, rfl, List.prefix_rfl, _, rfl⟩
  · exact ScannerFrame.refl s

lemma moves_scannerStatus (fault : Option Exc) (name : String) :
    Moves ScannerFrame (onHost (JobService.scannerStatus fault name)) := by
  refine Moves.zoom fun s => ?_
  cases fault <;> exact ScannerFrame.refl s

lemma moves_addError (text : String) :
    Moves ScannerFrame (updateJob fun job => job.addError text) :=
  Moves.modify fun _ => ⟨rfl, rfl, rfl, rfl, rfl, rfl, List.prefix_rfl, _, rfl⟩

lemma runGeneric_moves (env : ScanEnv) (name : String) (position : ℕ) :
    Moves ScannerFrame (runGeneric env name position) := by
  refine Moves.bind ScannerFrame.trans (Moves.get ScannerFrame.refl) fun s => ?_
  refine Moves.tryCatch ScannerFrame.trans ?_ fun exc => moves_addError _
  refine Moves.bind ScannerFrame.trans (Moves.lift ScannerFrame.refl _) fun result => ?_
  refine Moves.bind ScannerFrame.trans ?_ fun _ => moves_saveScannerStatus _ _
  exact Moves.modify fun s => ⟨rfl, rfl, rfl, rfl, rfl, rfl, List.prefix_rfl, _, rfl⟩

lemma runPrepared_moves (env : ScanEnv) (name : String) (position : ℕ)
    (previous : Option ScannerRuntimeStatus) (probe : ProbeResult) :
    Moves ScannerFrame (runPrepared env name position previous probe) := by
  refine Moves.bind ScannerFrame.trans (Moves.get ScannerFrame.refl) fun s => ?_
  refine Moves.bind ScannerFrame.trans (Moves.lift ScannerFrame.refl _) fun result => ?_
  refine Moves.bind ScannerFrame.trans ?_ fun _ => moves_saveScannerStatus _ _
  exact Moves.modify fun s =>
    ⟨rfl, rfl, rfl, rfl, rfl, rfl, List.prefix_append _ _, _, rfl⟩

lemma runAdapter_moves (env : ScanEnv) (name : String) (position : ℕ) :
    Moves ScannerFrame (runAdapter env name position) := by
  refine Moves.bind ScannerFrame.trans (Moves.get ScannerFrame.refl) fun s => ?_
  refine Moves.bind ScannerFrame.trans (Moves.lift ScannerFrame.refl _) fun probe => ?_
  refine Moves.ite (moves_addError _) ?_
  refine Moves.bind ScannerFrame.trans (moves_scannerStatus _ _) fun previous => ?_
  refine Moves.bind ScannerFrame.trans (moves_saveScannerStatus _ _) fun _ => ?_
  refine Moves.bind ScannerFrame.trans (Moves.raiseIf ScannerFrame.refl _) fun _ => ?_
  exact Moves.tryFinally ScannerFrame.trans (runPrepared_moves _ _ _ _ _)
    (Moves.raiseIf ScannerFrame.refl _)

lemma runScanner_moves (env : ScanEnv) (name : String) (position : ℕ) :
    Moves ScannerFrame (runScanner env name position) :=
  Moves.ite (Moves.pure ScannerFrame.refl ()) <|
    Moves.ite (runGeneric_moves env name position) <|
      Moves.ite (runAdapter_moves env name position) (moves_addError _)

/-- The whole loop stays within the frame. -/
lemma runScanners_moves (env : ScanEnv) (requested : List String) :
    Moves ScannerFrame (runScanners env requested) :=
  Moves.forEach ScannerFrame.refl ScannerFrame.trans fun item _ =>
    Moves.bind ScannerFrame.trans (runScanner_moves env item.1 item.2) fun _ =>
      Moves.pure ScannerFrame.refl _

/-! ## When the scanners return -/

/-- Nothing the adapter at a position is asked to do raises. -/
def AdapterReturns (env : ScanEnv) (id : JobId) (position : ℕ) : Prop :=
  ∃ probe, env.probe id position = .ok probe ∧
    (probe.available = true → probe.state = .probed →
      env.fault id (.scannerStatuses position) = none ∧
      env.fault id (.saveProbed position) = none ∧
      env.prepare id position = none ∧
      (∃ result, env.runPrepared id position = .ok result) ∧
      env.fault id (.saveScanned position) = none ∧
      env.cleanup id position = none)

/-- Only an adapter can raise out of the loop: the exceptions of a generic analyzer are caught. -/
def ScannerReturns (env : ScanEnv) (id : JobId) (name : String) (position : ℕ) : Prop :=
  name ∉ lateStages → name ∉ env.genericAnalyzers → name ∈ env.adapters →
    AdapterReturns env id position

/-- The loop over the requested scanners of a job returns. -/
def ScannersReturn (env : ScanEnv) (id : JobId) (requested : List String) : Prop :=
  ∀ item ∈ requested.zipIdx, ScannerReturns env id item.1 item.2

lemma runGeneric_returns (env : ScanEnv) (name : String) (position : ℕ) (s : ScanState) :
    Returns (runGeneric env name position) s := by
  unfold runGeneric
  rw [returns_iff]
  simp only [get_bind_apply, tryCatch_apply, updateJob_apply]
  split <;> exact ⟨_, _, rfl⟩

lemma runPrepared_returns (env : ScanEnv) (name : String) (position : ℕ)
    (previous : Option ScannerRuntimeStatus) (probe : ProbeResult) (s : ScanState) :
    Returns (runPrepared env name position previous probe) s ↔
      (∃ result, env.runPrepared s.job.jobId position = .ok result) ∧
        env.fault s.job.jobId (.saveScanned position) = none := by
  unfold runPrepared
  cases hrun : env.runPrepared s.job.jobId position <;>
    cases hfault : env.fault s.job.jobId (.saveScanned position) <;>
    simp [returns_iff, bind_apply, hrun, hfault, onHost, zoom, JobService.saveScannerStatus]

lemma scannerStatus_bind_returns {fault : Option Exc} {name : String} {s : ScanState}
    {f : Option ScannerRuntimeStatus → EStateM Exc ScanState Unit} :
    Returns (onHost (JobService.scannerStatus fault name) >>= f) s ↔
      fault = none ∧ Returns (f (s.host.scannerRuntime name)) s := by
  cases fault <;>
    simp [returns_iff, bind_apply, onHost, zoom, JobService.scannerStatus]

lemma saveScannerStatus_bind_returns {fault : Option Exc} {status : ScannerRuntimeStatus}
    {s : ScanState} {f : Unit → EStateM Exc ScanState Unit} :
    Returns (onHost (JobService.saveScannerStatus fault status) >>= f) s ↔
      fault = none ∧ Returns (f ())
        { s with
          host := { s.host with
            scannerRuntime :=
              Function.update s.host.scannerRuntime status.scannerId status } } := by
  cases fault <;>
    simp [returns_iff, bind_apply, onHost, zoom, JobService.saveScannerStatus]

lemma raiseIf_bind_returns {e : Option Exc} {s : ScanState}
    {f : Unit → EStateM Exc ScanState Unit} :
    Returns (raiseIf e >>= f) s ↔ e = none ∧ Returns (f ()) s := by
  cases e <;> simp [returns_iff, bind_apply]

/-- An adapter raises out of the loop exactly when one of the calls made for it raises. -/
lemma runAdapter_returns (env : ScanEnv) (name : String) (position : ℕ) (s : ScanState) :
    Returns (runAdapter env name position) s ↔ AdapterReturns env s.job.jobId position := by
  unfold runAdapter AdapterReturns
  rw [Returns, raised, get_bind_apply, ← raised, ← Returns]
  cases hprobe : env.probe s.job.jobId position with
  | error e => simp [returns_iff, bind_apply]
  | ok probe =>
      rw [returns_bind]
      simp only [lift_ok, EStateM.Result.ok.injEq, exists_eq_left', existsAndEq, true_and,
        Except.ok.injEq]
      by_cases havailable : probe.available = true ∧ probe.state = .probed
      · obtain ⟨ha, hp⟩ := havailable
        simp [ha, hp, scannerStatus_bind_returns, saveScannerStatus_bind_returns,
          raiseIf_bind_returns, returns_tryFinally, runPrepared_returns, and_assoc]
      · have hskip : (!probe.available || decide (probe.state ≠ .probed)) = true := by
          cases hcase : probe.available <;> simp_all
        rw [if_pos hskip]
        exact ⟨fun _ ha hp => absurd ⟨ha, hp⟩ havailable, fun _ => returns_of_ok rfl⟩

lemma runScanner_returns (env : ScanEnv) (name : String) (position : ℕ) (s : ScanState) :
    Returns (runScanner env name position) s ↔
      ScannerReturns env s.job.jobId name position := by
  unfold runScanner ScannerReturns
  by_cases hlate : name ∈ lateStages
  · simp [hlate]
  by_cases hgeneric : name ∈ env.genericAnalyzers
  · simp [hlate, hgeneric, runGeneric_returns]
  by_cases hadapter : name ∈ env.adapters
  · simp [hlate, hgeneric, hadapter, runAdapter_returns]
  · simp only [hlate, hgeneric, hadapter, if_false, false_implies, implies_true, iff_true]
    exact returns_of_ok rfl

/-- The loop returns exactly when every scanner of the list does. -/
lemma runScanners_returns (env : ScanEnv) (requested : List String) (s : ScanState) :
    Returns (runScanners env requested) s ↔ ScannersReturn env s.job.jobId requested := by
  unfold runScanners ScannersReturn
  generalize requested.zipIdx = items
  induction items generalizing s with
  | nil => simp [forEach]
  | cons item items ih =>
      rw [forEach, returns_bind]
      simp only [List.forall_mem_cons]
      constructor
      · rintro ⟨flow, t, hbody, hrest⟩
        obtain ⟨⟨⟩, t', hscan, hflow⟩ := bind_eq_ok.1 hbody
        obtain ⟨rfl, rfl⟩ := EStateM.Result.ok.inj hflow
        have hid : t'.job.jobId = s.job.jobId := by
          have hmove := runScanner_moves env item.1 item.2 s
          rw [final_of_ok hscan] at hmove
          exact hmove.jobId
        exact ⟨(runScanner_returns env item.1 item.2 s).1 (returns_of_ok hscan),
          by simpa [hid] using (ih t').1 hrest⟩
      · rintro ⟨hfirst, hrest⟩
        obtain ⟨⟨⟩, t, hscan⟩ := returns_iff.1 ((runScanner_returns env item.1 item.2 s).2 hfirst)
        have hid : t.job.jobId = s.job.jobId := by
          have hmove := runScanner_moves env item.1 item.2 s
          rw [final_of_ok hscan] at hmove
          exact hmove.jobId
        exact ⟨.next, t, bind_eq_ok.2 ⟨(), t, hscan, rfl⟩, (ih t).2 (by simpa [hid] using hrest)⟩

/-! ## The frame of the late stages -/

/-- What every stage leaves alone.  The only rows written while the stages of a job run are those
of jobs created meanwhile, and what is admitted to quarantine is stored under its own digest. -/
structure StageFrame (sha256 : Bytes → Digest 64) (s s' : ScanState) : Prop where
  jobId : s'.job.jobId = s.job.jobId
  status : s'.job.status = s.job.status
  inputArtifact : s'.job.inputArtifact = s.job.inputArtifact
  requested : s'.job.requestedScanners = s.job.requestedScanners
  rows : ∀ id < s.host.nextJobId, s'.host.jobs id = s.host.jobs id
  sound : QuarantineSound sha256 s.host → QuarantineSound sha256 s'.host
  nextJobId : s.host.nextJobId ≤ s'.host.nextJobId

/-- The recursive analyzer adds derived objects. -/
structure RecursionFrame (sha256 : Bytes → Digest 64) (s s' : ScanState) : Prop
    extends StageFrame sha256 s s' where
  scannerResults : s'.job.scannerResults = s.job.scannerResults
  derivedObjects : s.job.derivedObjects <+: s'.job.derivedObjects

/-- The correlation service fills in preservation contexts. -/
structure CorrelationFrame (sha256 : Bytes → Digest 64) (s s' : ScanState) : Prop
    extends StageFrame sha256 s s' where
  scannerResults : s'.job.scannerResults = s.job.scannerResults
  normalizedVerdict : s'.job.normalizedVerdict = s.job.normalizedVerdict
  derivedResults : s'.job.derivedObjects.map (·.scannerResults) =
    s.job.derivedObjects.map (·.scannerResults)

/-- The id of the job was handed out before. -/
def ScanState.Issued (s : ScanState) : Prop := s.job.jobId < s.host.nextJobId

/-- One run of a late stage: any effect within the frame, then an exception or none. -/
structure StageOutcome (Frame : ScanState → ScanState → Prop) where
  effect : ScanState → ScanState
  raised : Option Exc
  frame : ∀ s, ScanState.Issued s → Frame s (effect s)

/-- The stage as a program. -/
def StageOutcome.run {Frame : ScanState → ScanState → Prop} (outcome : StageOutcome Frame) :
    EStateM Exc ScanState Unit := do
  modify outcome.effect
  raiseIf outcome.raised

/-- The outcomes of the two late stages, where they are attached. -/
structure LateOutcomes (sha256 : Bytes → Digest 64) where
  recursive : Option (StageOutcome (RecursionFrame sha256))
  correlation : Option (StageOutcome (CorrelationFrame sha256))

/-- The stages with these outcomes. -/
def LateOutcomes.stages {sha256 : Bytes → Digest 64} (late : LateOutcomes sha256) : Stages where
  recursiveAnalyzer := late.recursive.map fun outcome _ => outcome.run
  correlationService := late.correlation.map fun outcome => outcome.run

/-- No stage of the job raises. -/
def StagesReturn (env : ScanEnv) (late : LateOutcomes env.sha256) (job : ScanJob) : Prop :=
  ScannersReturn env job.jobId job.requestedScanners ∧
    ("container" ∈ job.requestedScanners → ∀ outcome ∈ late.recursive, outcome.raised = none) ∧
    ("rab-correlation" ∈ job.requestedScanners →
      ∀ outcome ∈ late.correlation, outcome.raised = none)

namespace StageFrame

variable {sha256 : Bytes → Digest 64} {s t u : ScanState}

lemma refl (s : ScanState) : StageFrame sha256 s s :=
  ⟨rfl, rfl, rfl, rfl, fun _ _ => rfl, id, Nat.le_refl _⟩

lemma issued (h : StageFrame sha256 s t) (hs : ScanState.Issued s) : ScanState.Issued t := by
  unfold ScanState.Issued
  rw [h.jobId]
  exact Nat.lt_of_lt_of_le hs h.nextJobId

lemma trans (hst : StageFrame sha256 s t) (htu : StageFrame sha256 t u) :
    StageFrame sha256 s u where
  jobId := htu.jobId.trans hst.jobId
  status := htu.status.trans hst.status
  inputArtifact := htu.inputArtifact.trans hst.inputArtifact
  requested := htu.requested.trans hst.requested
  rows id hid := (htu.rows id (Nat.lt_of_lt_of_le hid hst.nextJobId)).trans (hst.rows id hid)
  sound := htu.sound ∘ hst.sound
  nextJobId := Nat.le_trans hst.nextJobId htu.nextJobId

/-- The scanners stay in the frame of a stage. -/
lemma of_scanners (h : ScannerFrame s t) : StageFrame sha256 s t := by
  obtain ⟨runtime, hhost⟩ := h.host
  exact ⟨h.jobId, h.status, h.inputArtifact, h.requested, fun _ _ => by rw [hhost],
    fun hsound => by rw [hhost]; exact hsound, Nat.le_of_eq (by rw [hhost])⟩

end StageFrame

/-! ## Running the stages -/

section Stages

variable {env : ScanEnv} {late : LateOutcomes env.sha256} {requested : List String}
  {source : Bytes} {s s' : ScanState}

lemma StageOutcome.run_returns {Frame : ScanState → ScanState → Prop}
    (outcome : StageOutcome Frame) (s : ScanState) :
    Returns outcome.run s ↔ outcome.raised = none := by
  unfold StageOutcome.run
  cases hraised : outcome.raised <;> simp [returns_iff]

lemma StageOutcome.run_eq_ok {Frame : ScanState → ScanState → Prop}
    {outcome : StageOutcome Frame} (h : outcome.run s = .ok () s') : s' = outcome.effect s := by
  unfold StageOutcome.run at h
  cases hraised : outcome.raised <;> simp [hraised] at h
  exact h.symm

lemma StageOutcome.final_run {Frame : ScanState → ScanState → Prop}
    (outcome : StageOutcome Frame) (s : ScanState) :
    final outcome.run s = outcome.effect s := by
  unfold StageOutcome.run
  cases hraised : outcome.raised <;> simp [final]

lemma runRecursion_returns (s : ScanState) :
    Returns (runRecursion late.stages requested source) s ↔
      ("container" ∈ requested → ∀ outcome ∈ late.recursive, outcome.raised = none) := by
  unfold runRecursion LateOutcomes.stages
  cases late.recursive with
  | none => simp
  | some outcome =>
      by_cases hcontainer : "container" ∈ requested
      · simp only [Option.map_some, hcontainer, if_true, returns_bind, forall_true_left,
          Option.mem_some_iff, forall_eq']
        rw [← outcome.run_returns s, returns_iff]
        exact ⟨fun ⟨a, t, hrun, _⟩ => ⟨a, t, hrun⟩,
          fun ⟨a, t, hrun⟩ => ⟨a, t, hrun, returns_of_ok rfl⟩⟩
      · simp [hcontainer]

lemma runCorrelation_returns (s : ScanState) :
    Returns (runCorrelation late.stages requested) s ↔
      ("rab-correlation" ∈ requested → ∀ outcome ∈ late.correlation, outcome.raised = none) := by
  unfold runCorrelation LateOutcomes.stages
  cases late.correlation with
  | none => simp
  | some outcome =>
      by_cases hcorrelation : "rab-correlation" ∈ requested
      · simp [hcorrelation, outcome.run_returns]
      · simp [hcorrelation]

/-- The stages of a job return together exactly when none of them raises. -/
lemma analyze_returns (s : ScanState) :
    Returns (analyze env late.stages s.job.requestedScanners source) s ↔
      StagesReturn env late s.job := by
  unfold analyze StagesReturn
  rw [← runScanners_returns env s.job.requestedScanners s, returns_bind]
  simp only [returns_updateJob_bind]
  simp only [returns_bind]
  constructor
  · rintro ⟨⟨⟩, t, hscan, ⟨⟩, u, hrec, hcorr⟩
    exact ⟨returns_of_ok hscan, (runRecursion_returns _).1 (returns_of_ok hrec),
      (runCorrelation_returns _).1 hcorr⟩
  · rintro ⟨hscan, hrec, hcorr⟩
    obtain ⟨⟨⟩, t, hscan⟩ := returns_iff.1 hscan
    obtain ⟨⟨⟩, u, hrec⟩ := returns_iff.1 ((runRecursion_returns _).2 hrec)
    exact ⟨(), t, hscan, (), u, hrec, (runCorrelation_returns _).2 hcorr⟩

lemma runRecursion_frame (hissued : ScanState.Issued s) :
    StageFrame env.sha256 s (final (runRecursion late.stages requested source) s) := by
  unfold runRecursion LateOutcomes.stages
  cases late.recursive with
  | none => exact .refl s
  | some outcome =>
      simp only [Option.map_some]
      split
      · have hframe := (outcome.frame s hissued).toStageFrame
        rw [← outcome.final_run s] at hframe
        cases hrun : outcome.run s <;>
          simp only [final, bind_apply, hrun, updateJob_apply] at hframe ⊢ <;>
          exact hframe.trans ⟨rfl, rfl, rfl, rfl, fun _ _ => rfl, id, Nat.le_refl _⟩
      · exact .refl s

lemma runCorrelation_frame (hissued : ScanState.Issued s) :
    StageFrame env.sha256 s (final (runCorrelation late.stages requested) s) := by
  unfold runCorrelation LateOutcomes.stages
  cases late.correlation with
  | none => exact .refl s
  | some outcome =>
      simp only [Option.map_some]
      split
      · rw [outcome.final_run]
        exact (outcome.frame s hissued).toStageFrame
      · exact .refl s

/-- All the stages together stay within the frame of one. -/
lemma analyze_frame (hissued : ScanState.Issued s) :
    StageFrame env.sha256 s (final (analyze env late.stages requested source) s) := by
  have hmoves : Moves (fun s t => ScanState.Issued s → StageFrame env.sha256 s t)
      (analyze env late.stages requested source) := by
    have htrans : ∀ s t u : ScanState, (ScanState.Issued s → StageFrame env.sha256 s t) →
        (ScanState.Issued t → StageFrame env.sha256 t u) →
        ScanState.Issued s → StageFrame env.sha256 s u :=
      fun s t u hst htu hs => (hst hs).trans (htu ((hst hs).issued hs))
    refine Moves.bind htrans
      (fun s _ => StageFrame.of_scanners (runScanners_moves env requested s)) fun _ => ?_
    refine Moves.bind htrans
      (fun s _ => ⟨rfl, rfl, rfl, rfl, fun _ _ => rfl, id, Nat.le_refl _⟩) fun _ => ?_
    exact Moves.bind htrans (fun s => runRecursion_frame) fun _ s => runCorrelation_frame
  exact hmoves s hissued

/-- The scanner results a run appended to the job and to its derived objects. -/
def appendedResults (s s' : ScanState) : List ScannerResult :=
  s'.job.scannerResults.drop s.job.scannerResults.length ++
    (s'.job.derivedObjects.drop s.job.derivedObjects.length).flatMap (·.scannerResults)

lemma runRecursion_eq_ok (hissued : ScanState.Issued s)
    (hrun : runRecursion late.stages requested source s = .ok () s') :
    s' = s ∨ (s'.job.scannerResults = s.job.scannerResults ∧
      s'.job.normalizedVerdict = aggregateVerdict
        (s'.job.scannerResults ++ s'.job.derivedObjects.flatMap (·.scannerResults))) := by
  unfold runRecursion LateOutcomes.stages at hrun
  cases hlate : late.recursive with
  | none => simp [hlate] at hrun; exact .inl hrun.symm
  | some outcome =>
      simp only [hlate, Option.map_some] at hrun
      split at hrun
      · obtain ⟨⟨⟩, t, ht, hupdate⟩ := bind_eq_ok.1 hrun
        obtain rfl := outcome.run_eq_ok ht
        obtain ⟨-, rfl⟩ := EStateM.Result.ok.inj hupdate
        exact .inr ⟨(outcome.frame s hissued).scannerResults, rfl⟩
      · exact .inl (EStateM.Result.ok.inj hrun).2.symm

lemma runCorrelation_eq_ok (hissued : ScanState.Issued s)
    (hrun : runCorrelation late.stages requested s = .ok () s') :
    s'.job.scannerResults = s.job.scannerResults ∧
      s'.job.normalizedVerdict = s.job.normalizedVerdict ∧
      s'.job.derivedObjects.map (·.scannerResults) =
        s.job.derivedObjects.map (·.scannerResults) := by
  unfold runCorrelation LateOutcomes.stages at hrun
  cases hlate : late.correlation with
  | none => simp [hlate] at hrun; simp [hrun]
  | some outcome =>
      simp only [hlate, Option.map_some] at hrun
      split at hrun
      · obtain rfl := outcome.run_eq_ok hrun
        have hframe := outcome.frame s hissued
        exact ⟨hframe.scannerResults, hframe.normalizedVerdict, hframe.derivedResults⟩
      · simp [(EStateM.Result.ok.inj hrun).2]

/-- Results are appended to the job, or to an object that the recursion derived. -/
lemma mem_appendedResults {result : ScannerResult} (h : result ∈ appendedResults s s') :
    result ∈ s'.job.scannerResults ∨
      (s.job.derivedObjects.length < s'.job.derivedObjects.length ∧
        result ∈ s'.job.derivedObjects.flatMap (·.scannerResults)) := by
  rcases List.mem_append.1 h with hroot | hderived
  · exact .inl (List.mem_of_mem_drop hroot)
  · obtain ⟨child, hchild, hresult⟩ := List.mem_flatMap.1 hderived
    refine .inr ⟨?_, List.mem_flatMap.2 ⟨child, List.mem_of_mem_drop hchild, hresult⟩⟩
    have hlength := List.length_pos_of_mem hchild
    rw [List.length_drop] at hlength
    omega

/-- Once the stages have returned, the verdict of the job takes every appended result in. -/
lemma analyze_positive (hissued : ScanState.Issued s)
    (hrun : analyze env late.stages requested source s = .ok () s')
    (hpositive : ∃ result ∈ appendedResults s s', result.normalizedVerdict.positive = true) :
    s'.job.normalizedVerdict.positive = true := by
  obtain ⟨⟨⟩, t, hscan, hlate⟩ := bind_eq_ok.1 hrun
  rw [updateJob_bind_apply] at hlate
  obtain ⟨⟨⟩, u, hrec, hcorr⟩ := bind_eq_ok.1 hlate
  have hscanner : ScannerFrame s t := by
    rw [← final_of_ok hscan]
    exact runScanners_moves env requested s
  have hframe : StageFrame env.sha256 s t := .of_scanners hscanner
  have ht : ScanState.Issued ⟨takeRootVerdict t.job, t.host⟩ := hframe.issued hissued
  have hrecursion : StageFrame env.sha256 _ u := final_of_ok hrec ▸ runRecursion_frame ht
  obtain ⟨hresults, hverdict, hderived⟩ := runCorrelation_eq_ok (hrecursion.issued ht) hcorr
  have hflat : s'.job.derivedObjects.flatMap (·.scannerResults) =
      u.job.derivedObjects.flatMap (·.scannerResults) := by
    rw [List.flatMap_def, List.flatMap_def, hderived]
  have hlength : s'.job.derivedObjects.length = u.job.derivedObjects.length := by
    simpa using congrArg List.length hderived
  obtain ⟨result, hmem, hpos⟩ := hpositive
  rw [hverdict]
  have hmem := mem_appendedResults hmem
  rw [hresults, hflat, hlength] at hmem
  rcases runRecursion_eq_ok ht hrec with rfl | ⟨-, haggregate⟩
  · rcases hmem with hroot | ⟨hgrown, -⟩
    · exact aggregateVerdict_of_match hroot hpos
    · rw [← hscanner.derivedObjects] at hgrown
      exact absurd hgrown (Nat.lt_irrefl _)
  · rw [haggregate]
    refine aggregateVerdict_of_match ?_ hpos
    rcases hmem with hroot | ⟨-, hderived⟩
    · exact List.mem_append_left _ hroot
    · exact List.mem_append_right _ hderived

end Stages

end ScanService

end AVBox
