import AVBox.Correlation.Budget
import AVBox.Lib.Fallible
import AVBox.Lib.Transitions

/-!
# What the completeness of a job says about its derived objects

Each derived object is a job of its own, with a completeness of its own, and `_child` takes the
results, the verdict and the errors of that job over but not its completeness.  An extraction is a
run of labelled steps here, so that the jobs of the derived objects can be named:
`root_covers_children_iff` says for which runs the completeness of the root covers them.
-/

namespace AVBox

open Program Fallible ContainerAnalyzer Transitions

namespace ScanService

variable {env : ScanEnv} {xenv : ExtractEnv} {cenv : CorrelationService.CorrelationEnv}

/-! ## Which analyzer results make a job partial -/

/-- A generic result that makes its job partial, given by `name`. -/
def MarksPartial (name : String) (result : AnalyzerResult) : Prop :=
  (name = "document" ∧ startsWith result.nativeStatus "partial_") ∨
    (result.errors ≠ [] ∧ name ∈ ["executable", "document"])

lemma upper_partial_ne_complete {text : String} (h : startsWith text "partial_") :
    upper text ≠ "COMPLETE" := by
  intro heq
  have hlist : text.toList.map Char.toUpper = "COMPLETE".toList := by
    rw [← heq, upper, String.toList_ofList]
  obtain ⟨rest, hrest⟩ := List.isPrefixOf_iff_prefix.1 h
  rw [← hrest, List.map_append] at hlist
  exact absurd (congrArg List.head? hlist) (by simp)

/-- No generic result takes a PARTIAL state back. -/
lemma analyzerCompleteness_eq_complete {name : String} {result : AnalyzerResult}
    {completeness : String} : analyzerCompleteness name result completeness = "COMPLETE" ↔
      completeness = "COMPLETE" ∧ ¬MarksPartial name result := by
  unfold analyzerCompleteness MarksPartial
  by_cases hdocument : name = "document" ∧ startsWith result.nativeStatus "partial_"
  · simp [hdocument, upper_partial_ne_complete hdocument.2]
  by_cases herrors : result.errors ≠ [] ∧ name ∈ ["executable", "document"]
  · have hboth : result.errors ≠ [] ∧ name ∈ ["executable", "document"] ∧
        ¬(name = "document" ∧ startsWith result.nativeStatus "partial_") :=
      ⟨herrors.1, herrors.2, hdocument⟩
    refine iff_of_false ?_ fun h => h.2 (.inr herrors)
    rw [if_pos hboth]
    split_ifs <;> decide
  · have hneither : ¬(result.errors ≠ [] ∧ name ∈ ["executable", "document"] ∧
        ¬(name = "document" ∧ startsWith result.nativeStatus "partial_")) :=
      fun h => herrors ⟨h.1, h.2.1⟩
    rw [if_neg hneither, if_neg hdocument]
    exact ⟨fun h => ⟨h, not_or.2 ⟨hdocument, herrors⟩⟩, And.left⟩

/-- The scanner at a position of the list makes its job partial. -/
def MarkedBy (env : ScanEnv) (id : JobId) (item : String × ℕ) : Prop :=
  item.1 ∉ lateStages ∧ item.1 ∈ env.genericAnalyzers ∧
    ∃ result, env.analyze id item.2 = .ok result ∧ MarksPartial item.1 result

/-- One of the requested scanners that the loop comes to makes the job partial. -/
def Marked (env : ScanEnv) (requested : List String) (id : JobId) : Prop :=
  Meets (fun item => ScannerReturns env id item.1 item.2) (MarkedBy env id) requested.zipIdx

/-! ## The completeness of a job up to its recursion -/

/-- The job is as complete as it was. -/
def CompletenessSame (s t : ScanState) : Prop := t.job.completeness = s.job.completeness

namespace CompletenessSame

lemma refl (s : ScanState) : CompletenessSame s s := rfl

lemma trans (s t u : ScanState) (hst : CompletenessSame s t) (htu : CompletenessSame t u) :
    CompletenessSame s u := Eq.trans htu hst

lemma onHost {α : Type} (x : EStateM Exc Host α) : Moves CompletenessSame (AVBox.onHost x) :=
  Moves.zoom fun _ => rfl

lemma runAdapter (name : String) (position : ℕ) :
    Moves CompletenessSame (ScanService.runAdapter env name position) := by
  refine Moves.bind trans (Moves.get refl) fun s => ?_
  refine Moves.bind trans (Moves.lift refl _) fun probe => Moves.ite (fun _ => rfl) ?_
  refine Moves.bind trans (onHost _) fun previous => Moves.bind trans (onHost _) fun _ => ?_
  refine Moves.bind trans (Moves.raiseIf refl _) fun _ => ?_
  refine Moves.tryFinally trans ?_ (Moves.raiseIf refl _)
  refine Moves.bind trans (Moves.get refl) fun s => ?_
  refine Moves.bind trans (Moves.lift refl _) fun result => ?_
  exact Moves.bind trans (fun _ => rfl) fun _ => onHost _

lemma runCorrelation (depth : ℕ) (requested : List String) :
    Moves CompletenessSame
      (ScanService.runCorrelation (serviceStages env xenv cenv depth) requested) := by
  intro s
  unfold ScanService.runCorrelation
  rw [serviceStages_correlation]
  refine Moves.ite (fun s => ?_) (Moves.pure refl _) s
  obtain ⟨⟨context, derived, hjob, -⟩, -⟩ := CorrelationService.process_frame cenv s
  rw [CompletenessSame, hjob]

end CompletenessSame

lemma runScanner_complete (name : String) (position : ℕ) (s : ScanState) :
    (final (runScanner env name position) s).job.completeness = "COMPLETE" ↔
      s.job.completeness = "COMPLETE" ∧ ¬MarkedBy env s.job.jobId (name, position) := by
  unfold runScanner MarkedBy
  by_cases hlate : name ∈ lateStages
  · simp [hlate, final]
  by_cases hgeneric : name ∈ env.genericAnalyzers
  · simp only [hlate, hgeneric, if_false, if_true, not_false_eq_true, true_and]
    unfold runGeneric
    cases hanalyze : env.analyze s.job.jobId position with
    | error exc => simp [final, tryCatch_apply, bind_apply, hanalyze, ScanJob.addError]
    | ok result =>
        cases hfault : env.fault s.job.jobId (.saveAnalyzed position) <;>
          simp [final, tryCatch_apply, bind_apply, hanalyze, hfault, AVBox.onHost, zoom,
            JobService.saveScannerStatus, ScanJob.addError, analyzerCompleteness_eq_complete]
  by_cases hadapter : name ∈ env.adapters
  · have hsame : CompletenessSame s (final (runAdapter env name position) s) :=
      CompletenessSame.runAdapter name position s
    simp only [hlate, hgeneric, hadapter, if_false, if_true, false_and, and_false,
      not_false_eq_true, and_true]
    rw [hsame]
  · simp [hlate, hgeneric, hadapter, final, ScanJob.addError]

/-- A property of the job that a scanner can only give it is there after the loop exactly when it
was there before, or when the loop comes to a scanner that gives it. -/
lemma runScanners_iff {Q : ScanJob → Prop} {Cut : JobId → String × ℕ → Prop}
    (hscanner : ∀ name position s, Q (final (runScanner env name position) s).job ↔
      Q s.job ∨ Cut s.job.jobId (name, position))
    (requested : List String) (s : ScanState) :
    Q (final (runScanners env requested) s).job ↔ Q s.job ∨
      Meets (fun item => ScannerReturns env s.job.jobId item.1 item.2) (Cut s.job.jobId)
        requested.zipIdx := by
  unfold runScanners
  generalize requested.zipIdx = items
  induction items generalizing s with
  | nil =>
      simp [forEach, final, meets_nil]
  | cons item items ih =>
      have hfirst := hscanner item.1 item.2 s
      have hreturns := runScanner_returns env item.1 item.2 s
      have hid := (runScanner_moves env item.1 item.2 s).jobId
      rw [meets_cons, forEach]
      cases hscan : runScanner env item.1 item.2 s with
      | error exc t =>
          have hraises : ¬ScannerReturns env s.job.jobId item.1 item.2 := fun h =>
            not_returns_iff.2 ⟨exc, t, hscan⟩ (hreturns.2 h)
          have hbody : (do
              runScanner env item.1 item.2
              return Flow.next) s = EStateM.Result.error exc t := bind_of_error hscan _
          rw [final_of_error hscan] at hfirst
          rw [final_bind_of_error hbody, hfirst]
          simp [hraises]
      | ok _ t =>
          have hdone : ScannerReturns env s.job.jobId item.1 item.2 :=
            hreturns.1 (returns_of_ok hscan)
          have hbody : (do
              runScanner env item.1 item.2
              return Flow.next) s = EStateM.Result.ok Flow.next t := by
            rw [bind_of_ok hscan]
            rfl
          rw [final_of_ok hscan] at hfirst hid
          rw [final_bind_of_ok hbody, ih t, hfirst, hid]
          simp only [hdone, true_and, or_assoc]

/-- A job stays complete through its scanners exactly when none of them marks it. -/
lemma runScanners_complete (requested : List String) (s : ScanState) :
    (final (runScanners env requested) s).job.completeness = "COMPLETE" ↔
      s.job.completeness = "COMPLETE" ∧ ¬Marked env requested s.job.jobId := by
  have hmarked := @runScanners_iff env (fun job => job.completeness ≠ "COMPLETE") (MarkedBy env)
    (fun name position s => by
      rw [ne_eq, runScanner_complete, not_and_or, not_not]) requested s
  rw [← not_iff_not, not_and_or, not_not]
  exact hmarked

/-! ## The completeness of a finished job -/

/-- Behind the stages nothing changes the completeness. -/
lemma execute_completeness {stages : Stages} {source : Bytes} {s s' : ScanState}
    (h : execute env stages source s = .ok () s') : s'.job.completeness =
      (final (analyze env stages s.job.requestedScanners source) (running s)).job.completeness := by
  obtain ⟨hqueued, -⟩ := execute_eq_ok h
  have hsaved := saved_of_execute hqueued h
  have hsame := @execute_untouched env source s _ _ stages
    (⟨fun _ _ => rfl, fun _ _ => rfl, fun _ _ => rfl⟩ : Untouched ScanJob.completeness) hqueued
    hsaved
  rwa [final_of_ok h] at hsame

/-- Of the stages behind the scanners only the recursion changes it. -/
lemma analyze_completeness {depth : ℕ} {requested : List String} (source : Bytes) (s : ScanState) :
    (final (analyze env (serviceStages env xenv cenv depth) requested source)
        s).job.completeness =
      (final (beforeCorrelation env (serviceStages env xenv cenv depth) requested source)
        s).job.completeness := by
  have hanalyze : final (analyze env (serviceStages env xenv cenv depth) requested source) s =
      final (beforeCorrelation env (serviceStages env xenv cenv depth) requested source >>= fun _ =>
        runCorrelation (serviceStages env xenv cenv depth) requested) s := by
    simp only [final, analyze_apply]
  rw [hanalyze]
  cases hbefore : beforeCorrelation env (serviceStages env xenv cenv depth) requested source s with
  | error e t => rw [final_bind_of_error hbefore, final_of_error hbefore]
  | ok _ t =>
      rw [final_bind_of_ok hbefore, final_of_ok hbefore]
      exact CompletenessSame.runCorrelation depth requested t

/-- A job without the container analyzer is as complete as its scanners have left it. -/
lemma beforeCorrelation_completeness {stages : Stages} {requested : List String}
    (hcontainer : "container" ∉ requested) (source : Bytes) (s : ScanState) :
    (final (beforeCorrelation env stages requested source) s).job.completeness =
      (final (runScanners env requested) s).job.completeness := by
  unfold beforeCorrelation
  cases hscan : runScanners env requested s with
  | error e t => rw [final_bind_of_error hscan, final_of_error hscan]
  | ok _ t =>
      rw [final_bind_of_ok hscan, final_bind_of_ok (updateJob_apply takeRootVerdict t),
        final_of_ok (runRecursion_of_not_mem hcontainer _), final_of_ok hscan]
      rfl

/-- The job of a child is complete exactly when none of the scanners it is asked for marks it. -/
lemma scanChild_complete {artifact : InputArtifact} {label : String} {requested : List String}
    {content : Bytes} {depth : ℕ} {host host' : Host} {child : ScanJob}
    (hcontainer : "container" ∉ requested)
    (h : scanChild (scansOf env (serviceStages env xenv cenv depth)) artifact label
      requested content host = .ok child host') :
    child.completeness = "COMPLETE" ↔ ¬Marked env requested host.nextJobId := by
  obtain ⟨queued, host₁, hcreate, hexecute⟩ := bind_eq_ok.1 h
  have hend := @createQueued_end env artifact label requested host
  rw [show createQueued env artifact label requested host = _ from hcreate] at hend
  obtain ⟨-, -, -, ⟨applicable, rfl⟩, -, -⟩ := hend
  simp only [scansOf, executeQueued, withJob] at hexecute
  split at hexecute
  · next s' hrun =>
      obtain ⟨rfl, -⟩ := EStateM.Result.ok.inj hexecute
      rw [execute_completeness hrun, analyze_completeness,
        beforeCorrelation_completeness (by exact hcontainer), runScanners_complete]
      exact ⟨And.right, fun h => ⟨rfl, h⟩⟩
  · cases hexecute

/-! ## An extraction as a run -/

/-- What one step of an extraction does: a write, or the scan of a child, with the job that the
scan returns. -/
inductive ExtractionAction
  | write (write : Write)
  | scan (child : Option ScanJob)

/-- The job of the child that a step has executed. -/
def ExtractionAction.child : ExtractionAction → Option ScanJob
  | .write _ => none
  | .scan child => child

/-- What a program returns, if it returns. -/
def returned {α : Type} (x : EStateM Exc Host α) (host : Host) : Option α :=
  match x host with
  | .ok a _ => some a
  | .error _ _ => none

/-- The steps of an extraction, labelled by what they do. -/
inductive ExtractionStep (xenv : ExtractEnv) (scans : Scans Host) :
    ExtractState Host → ExtractionAction → ExtractState Host → Prop
  | write {s : ExtractState Host} (write : Write) (allowed : Allowed xenv s write) :
      ExtractionStep xenv scans s (.write write) (write.apply s)
  | scan {s : ExtractState Host} (artifact : InputArtifact) (label : String) (content : Bytes) :
      ExtractionStep xenv scans s
        (.scan (returned (scanChild scans artifact label (childScanners s.job) content) s.scans))
        { s with scans := afterScan scans s artifact label content }

/-- The states in which the steps were taken, each with its step. -/
abbrev ExtractionTrace := List (ExtractState Host × ExtractionAction)

/-- The jobs executed for the objects derived so far. -/
def childJobs (trace : ExtractionTrace) : List ScanJob :=
  trace.filterMap fun taken => taken.2.child

lemma childJobs_concat (trace : ExtractionTrace) (s : ExtractState Host)
    (action : ExtractionAction) :
    childJobs (trace ++ [(s, action)]) = childJobs trace ++ action.child.toList := by
  rw [childJobs, List.filterMap_append]
  cases hchild : action.child <;> simp [childJobs, hchild]

lemma run_of_steps {scans : Scans Host} {s t : ExtractState Host}
    (h : ContainerAnalyzer.Steps xenv scans s t) :
    ∃ trace, Run (ExtractionStep xenv scans) s trace t := by
  induction h with
  | refl => exact ⟨[], .nil⟩
  | tail _ hlast ih =>
      obtain ⟨trace, run⟩ := ih
      cases hlast with
      | write write allowed => exact ⟨_, run.snoc (.write write allowed)⟩
      | scan artifact label content => exact ⟨_, run.snoc (.scan artifact label content)⟩

/-! ## Which runs the completeness of the root covers -/

/-- A complete root job has complete children only. -/
def Covers (trace : ExtractionTrace) (root : ScanJob) : Prop :=
  root.completeness = "COMPLETE" → ∀ child ∈ childJobs trace, child.completeness = "COMPLETE"

/-- It has so in every state of a run. -/
def CoversThroughout (trace : ExtractionTrace) (last : ExtractState Host) : Prop :=
  (∀ before taken, before ++ [taken] <+: trace → Covers before taken.1.job) ∧ Covers trace last.job

/-- The step does not scan a child that its scanners mark while the root is still complete. -/
def Clear (env : ScanEnv) (taken : ExtractState Host × ExtractionAction) : Prop :=
  taken.2.child.isSome → taken.1.job.completeness = "COMPLETE" →
    ¬Marked env (childScanners taken.1.job) taken.1.scans.nextJobId

lemma apply_complete {s : ExtractState Host} {write : Write}
    (h : (write.apply s).job.completeness = "COMPLETE") : s.job.completeness = "COMPLETE" := by
  cases write with
  | completeness value => cases value <;> simp [Write.apply, Write.change, Partial.text] at h
  | _ => exact h

/-- One step keeps the children covered exactly when it is clear. -/
lemma ExtractionStep.covers {depth : ℕ} {s t : ExtractState Host} {action : ExtractionAction}
    {trace : ExtractionTrace} (hcovers : Covers trace s.job)
    (h : ExtractionStep xenv (scansOf env (serviceStages env xenv cenv depth)) s action t) :
    Covers (trace ++ [(s, action)]) t.job ↔ Clear env (s, action) := by
  unfold Covers
  rw [childJobs_concat]
  cases h with
  | write write _ =>
      refine iff_of_true (fun hcomplete => ?_) fun hchild => (by cases hchild)
      simpa [ExtractionAction.child] using hcovers (apply_complete hcomplete)
  | scan artifact label content =>
      simp only [Clear, ExtractionAction.child, returned]
      cases hscan : scanChild (scansOf env (serviceStages env xenv cenv depth)) artifact label
          (childScanners s.job) content s.scans with
      | error exc host =>
          refine iff_of_true (fun hcomplete => ?_) fun hchild => (by cases hchild)
          simpa using hcovers hcomplete
      | ok child host =>
          have hchild := scanChild_complete (childScanners_not_container s.job) hscan
          simp only [Option.toList_some, List.forall_mem_append, List.forall_mem_singleton,
            Option.isSome_some, forall_true_left, hchild]
          exact ⟨fun h hcomplete => (h hcomplete).2,
            fun h hcomplete => ⟨hcovers hcomplete, h hcomplete⟩⟩

/-- A run covers its children throughout exactly when all its steps are clear. -/
lemma coversThroughout_iff {depth : ℕ} {s t : ExtractState Host} {trace : ExtractionTrace}
    (run : Run (ExtractionStep xenv (scansOf env (serviceStages env xenv cenv depth))) s trace t) :
    CoversThroughout trace t ↔ ∀ taken ∈ trace, Clear env taken := by
  induction run with
  | nil => simp [CoversThroughout, Covers, childJobs]
  | snoc run step ih =>
      rw [List.forall_mem_append, List.forall_mem_singleton, ← ih]
      constructor
      · rintro ⟨hbefore, hlast⟩
        have hcovers := hbefore _ _ List.prefix_rfl
        exact ⟨⟨fun before taken h => hbefore before taken (h.trans (List.prefix_append _ _)),
          hcovers⟩, (step.covers hcovers).1 hlast⟩
      · rintro ⟨⟨hbefore, hcovers⟩, hclear⟩
        refine ⟨fun before taken h => ?_, (step.covers hcovers).2 hclear⟩
        rcases List.prefix_concat_iff.1 h with heq | h
        · obtain ⟨rfl, hlast⟩ := List.append_inj' heq rfl
          obtain rfl := List.singleton_inj.1 hlast
          exact hcovers
        · exact hbefore before taken h

/-! ## The root job -/

/-- The state in which the extraction of a root job begins: its scanners have been run. -/
def extractionStart (env : ScanEnv) (source : Bytes) (s : ScanState) : ExtractState Host :=
  let scanned := final (runScanners env s.job.requestedScanners) (running s)
  ContainerAnalyzer.begin source (.fresh (takeRootVerdict scanned.job) scanned.host)

/-- The scanners and the recursion of a submission, which leave the object graph to the
correlation service. -/
def buildGraph (env : ScanEnv) (xenv : ExtractEnv) (cenv : CorrelationService.CorrelationEnv)
    (depth : ℕ) (source : Bytes) (s : ScanState) : EStateM Exc ScanState Unit :=
  beforeCorrelation env (serviceStages env xenv cenv (depth + 1)) s.job.requestedScanners source

/-- The steps by which a root job gets its derived objects, up to the last one. -/
structure Extracts (env : ScanEnv) (xenv : ExtractEnv) (cenv : CorrelationService.CorrelationEnv)
    (depth : ℕ) (source : Bytes) (s : ScanState) (trace : ExtractionTrace)
    (last : ExtractState Host) : Prop where
  run : Run (ExtractionStep xenv (scansOf env (serviceStages env xenv cenv depth)))
    (extractionStart env source s) trace last
  host : (final (buildGraph env xenv cenv depth source s) (running s)).host = last.scans
  completeness : (final (buildGraph env xenv cenv depth source s) (running s)).job.completeness =
    last.job.completeness

/-- Every root job that asks for the container analyzer extracts by such steps. -/
lemma exists_extracts (env : ScanEnv) (xenv : ExtractEnv)
    (cenv : CorrelationService.CorrelationEnv) (depth : ℕ) (source : Bytes) {s : ScanState}
    (hcontainer : "container" ∈ s.job.requestedScanners) :
    ∃ trace last, Extracts env xenv cenv depth source s trace last := by
  cases hscan : runScanners env s.job.requestedScanners (running s) with
  | error e u =>
      have hgraph : final (buildGraph env xenv cenv depth source s) (running s) = u := by
        rw [buildGraph, beforeCorrelation, final_bind_of_error hscan]
      have hscanned := final_of_error hscan
      refine ⟨[], _, .nil, ?_, ?_⟩ <;> rw [hgraph, extractionStart, hscanned] <;> rfl
  | ok _ u =>
      have hscanned := final_of_ok hscan
      obtain ⟨t, hsteps, hfinal⟩ := ContainerAnalyzer.process_steps xenv
        (scansOf env (serviceStages env xenv cenv depth)) source
        (.fresh (takeRootVerdict u.job) u.host)
      obtain ⟨trace, run⟩ := run_of_steps hsteps
      have hstage : final (containerStage xenv (scansOf env (serviceStages env xenv cenv depth))
          source) ⟨takeRootVerdict u.job, u.host⟩ = leaveExtraction (removed t) := by
        rw [final_containerStage, hfinal]
      have hgraph : final (buildGraph env xenv cenv depth source s) (running s) =
          final (runRecursion (serviceStages env xenv cenv (depth + 1)) s.job.requestedScanners
            source) ⟨takeRootVerdict u.job, u.host⟩ := by
        rw [buildGraph, beforeCorrelation, final_bind_of_ok hscan,
          final_bind_of_ok (updateJob_apply takeRootVerdict u)]
      simp only [runRecursion, serviceStages, hcontainer, if_true] at hgraph
      refine ⟨trace, t, by rwa [extractionStart, hscanned], ?_, ?_⟩ <;> rw [hgraph] <;>
        cases hrun : containerStage xenv (scansOf env (serviceStages env xenv cenv depth)) source
          ⟨takeRootVerdict u.job, u.host⟩ with
        | error e v =>
            rw [final_bind_of_error hrun, ← final_of_error hrun, hstage]
            rfl
        | ok _ v =>
            rw [final_of_ok hrun] at hstage
            rw [final_bind_of_ok hrun, hstage]
            rfl

/-- A root job that is executed covers the jobs of its derived objects in every state of its
extraction, and when it has finished, exactly if it never scans a child that is marked while it is
still complete itself. -/
theorem root_covers_children_iff {depth : ℕ} {source : Bytes} {s s' : ScanState}
    (hcontainer : "container" ∈ s.job.requestedScanners)
    (hrun : execute env (serviceStages env xenv cenv (depth + 1)) source s = .ok () s') :
    (∃ trace last, Extracts env xenv cenv depth source s trace last) ∧
      ∀ trace last, Extracts env xenv cenv depth source s trace last →
        (CoversThroughout trace last ∧ Covers trace s'.job ↔
          ∀ taken ∈ trace, Clear env taken) := by
  refine ⟨exists_extracts env xenv cenv depth source hcontainer, fun trace last hextracts => ?_⟩
  have hcompleteness : s'.job.completeness = last.job.completeness := by
    rw [execute_completeness hrun, analyze_completeness, ← hextracts.completeness, buildGraph]
  rw [← coversThroughout_iff hextracts.run]
  refine ⟨And.left, fun h => ⟨h, ?_⟩⟩
  rw [Covers, hcompleteness]
  exact h.2

/-! ### A truncated executable in a gzip file -/

/-- The two letters MZ, compressed by gzip. -/
def compressedStub : Bytes :=
  [0x1F, 0x8B, 0x08, 0, 0, 0, 0, 0, 0x02, 0x03, 0xF3, 0x8D, 0x02, 0, 0x5D, 0x9B, 0xB0, 0x8F, 2,
    0, 0, 0]

/-- A gzip decoder for that file. -/
def stubEnv : ExtractEnv :=
  { ExtractEnv.plain with openCompressed := fun _ _ => .ok (.ofBytes [0x4D, 0x5A]) }

/-- The executable analyzer on the file itself, which is job 0, and on its member. -/
def stubResult (id : JobId) : AnalyzerResult where
  nativeStatus := if id = 0 then "not_applicable" else "corrupt"
  errors := if id = 0 then [] else ["truncated DOS MZ header"]
  rawOutput := none
  qualificationState := some .qualified
  engineVersion := none
  productVersion := some "1"
  observations := []

/-- A service with the executable analyzer, whose calls all work. -/
def stubScanEnv : ScanEnv :=
  { bareEnv with
    genericAnalyzers := ["executable"]
    analyze := fun id _ => .ok (stubResult id)
    sourceAfter := fun id => .ok (if id = 0 then compressedStub else [0x4D, 0x5A]) }

/-- The submission of the file for both analyzers. -/
def stubSubmission : ScanState where
  job := { containerJob compressedStub with
    status := .queued
    requestedScanners := ["executable", "container"] }
  host := ⟨fun _ => none, fun _ => none, fun _ => none, fun _ => false, 1, []⟩

/-- The run of that submission. -/
def stubRun : EStateM Exc ScanState Unit :=
  execute stubScanEnv (serviceStages stubScanEnv stubEnv (providerEnv 3) 1) compressedStub

/-- The steps that the run takes. -/
theorem stub_extracts :
    ∃ trace last, Extracts stubScanEnv stubEnv (providerEnv 3) 0 compressedStub stubSubmission
      trace last := by
  have hreturns : Returns stubRun stubSubmission := by decide +kernel
  obtain ⟨⟨⟩, s', hrun⟩ := returns_iff.1 hreturns
  exact (root_covers_children_iff (by decide) hrun).1

/-- The run returns, its one child has ended as PARTIAL_ERROR, and the root is COMPLETE. -/
theorem stub_hidden :
    Returns stubRun stubSubmission ∧
      ¬((final stubRun stubSubmission).job.completeness = "COMPLETE" →
        ∀ child ∈ (final stubRun stubSubmission).host.jobs 1, child.completeness = "COMPLETE") := by
  have hchild : ((final stubRun stubSubmission).host.jobs 1).map (·.completeness) =
      some "PARTIAL_ERROR" := by decide +kernel
  refine ⟨by decide +kernel, fun h => ?_⟩
  obtain ⟨child, hjob, hpartial⟩ := Option.map_eq_some_iff.1 hchild
  have hcomplete := h (by decide +kernel) child hjob
  rw [hcomplete] at hpartial
  exact absurd hpartial (by decide)

end ScanService

end AVBox
