import AVBox.Analyzers.Runs
import AVBox.Application.Outcome
import AVBox.Application.Service

/-!
# The correlation budget of a submitted job

`CorrelationService.process` counts its queries afresh in every pass, and each derived object is a
job with a pass of its own.  `childQueries` is what the pass of a child asks, as a function of the
outcomes.  A submission stays within its budget when its children that ask and the objects of its
finished graph fit into it together (`QueriesFit`), and where its stages return only then.
-/

namespace AVBox

open Program CorrelationService

namespace ScanService

variable {env : ScanEnv} {xenv : ExtractEnv} {cenv : CorrelationEnv}

/-! ## Parts of a run that ask nothing -/

/-- No job is created and no query is made. -/
def LogSame (s t : ScanState) : Prop :=
  t.host.nextJobId = s.host.nextJobId ∧ t.host.correlateCalls = s.host.correlateCalls

namespace LogSame

lemma refl (s : ScanState) : LogSame s s := ⟨rfl, rfl⟩

lemma trans (s t u : ScanState) (hst : LogSame s t) (htu : LogSame t u) : LogSame s u :=
  ⟨htu.1.trans hst.1, htu.2.trans hst.2⟩

lemma of_scanners {s t : ScanState} (h : ScannerFrame s t) : LogSame s t := by
  obtain ⟨runtime, hhost⟩ := h.host
  exact ⟨by rw [hhost], by rw [hhost]⟩

lemma updateJob (f : ScanJob → ScanJob) : Moves LogSame (AVBox.updateJob f) := fun _ => ⟨rfl, rfl⟩

lemma transition (fault : Option Exc) (target : JobStatus) :
    Moves LogSame (JobService.transition fault target) := by
  intro s
  by_cases hmem : target ∈ transitions s.job.status
  · have hrun := @JobService.transition_of_mem fault target s hmem
    cases fault with
    | none => rw [final_of_ok hrun]; exact ⟨rfl, rfl⟩
    | some exc => rw [final_of_error hrun]; exact ⟨rfl, rfl⟩
  · rw [final_of_error (JobService.transition_of_not_mem hmem)]
    exact refl s

lemma admission (content : Bytes) (job : ScanJob) :
    Moves LogSame (onHost (ScanService.admission env content job)) := by
  refine Moves.zoom fun s => ?_
  have hsame := PreservationService.admitSource_moves (env.admitFault job.jobId) content
    job.inputArtifact job.normalizedVerdict s.host
  exact ⟨hsame.2.2.1, hsame.2.2.2⟩

lemma preserve (content : Bytes) : Moves LogSame (ScanService.preserve env content) := by
  refine Moves.bind trans (Moves.get refl) fun s => Moves.ite ?_ ?_
  · refine Moves.bind trans (admission content _) fun path => ?_
    exact Moves.bind trans (updateJob _) fun _ => transition _ _
  · exact Moves.bind trans (updateJob _) fun _ => transition _ _

lemma fail (exc : Exc) : Moves LogSame (ScanService.fail env exc) :=
  Moves.bind trans (Moves.get refl) fun _ => Moves.bind trans (updateJob _) fun _ =>
    transition _ _

lemma finish : Moves LogSame (ScanService.finish env) := by
  intro s
  obtain ⟨-, -, hclean, hunclean⟩ := @finish_row env s
  by_cases hcase : FinishClean env s.job.jobId
  · exact ⟨by rw [hclean hcase]; rfl, by rw [hclean hcase]; rfl⟩
  · exact ⟨by rw [hunclean hcase], by rw [hunclean hcase]⟩

end LogSame

/-- All queries of a run are made by its stages. -/
lemma execute_log {stages : Stages} {source : Bytes} {s : ScanState}
    (hqueued : s.job.status = .queued) (hsaved : env.fault s.job.jobId .saveRunning = none) :
    LogSame (final (analyze env stages s.job.requestedScanners source) (running s))
      (final (execute env stages source) s) :=
  execute_after_stages LogSame.refl LogSame.trans LogSame.preserve LogSame.fail LogSame.finish
    hqueued hsaved

/-- The stages before the correlation service. -/
def beforeCorrelation (env : ScanEnv) (stages : Stages) (requested : List String)
    (source : Bytes) : EStateM Exc ScanState Unit := do
  runScanners env requested
  updateJob takeRootVerdict
  runRecursion stages requested source

lemma analyze_apply (stages : Stages) (requested : List String) (source : Bytes) (s : ScanState) :
    analyze env stages requested source s =
      (beforeCorrelation env stages requested source >>= fun _ =>
        runCorrelation stages requested) s := by
  simp only [analyze, beforeCorrelation, bind_apply]
  cases runScanners env requested s <;> rfl

/-! ## Results of the generic analyzers -/

/-- The result a generic analyzer adds to its job. -/
def genericResult (env : ScanEnv) (id : JobId) (name : String) (position : ℕ) :
    Option AnalyzerResult :=
  if name ∉ lateStages ∧ name ∈ env.genericAnalyzers then (env.analyze id position).toOption
  else none

/-- The results of all generic analyzers of a job. -/
def genericResults (env : ScanEnv) (id : JobId) (requested : List String) : List AnalyzerResult :=
  requested.zipIdx.filterMap fun item => genericResult env id item.1 item.2

/-- The results of the generic analyzers stay as they are. -/
def ResultsSame (s t : ScanState) : Prop := t.job.analyzerResults = s.job.analyzerResults

lemma runAdapter_results (name : String) (position : ℕ) :
    Moves ResultsSame (runAdapter env name position) := by
  have hrefl : ∀ s, ResultsSame s s := fun _ => rfl
  have htrans : ∀ s t u, ResultsSame s t → ResultsSame t u → ResultsSame s u :=
    fun _ _ _ hst htu => Eq.trans htu hst
  have hhost : ∀ {α : Type} (x : EStateM Exc Host α), Moves ResultsSame (onHost x) :=
    fun x => Moves.zoom fun _ => rfl
  refine Moves.bind htrans (Moves.get hrefl) fun s => ?_
  refine Moves.bind htrans (Moves.lift hrefl _) fun probe => Moves.ite (fun _ => rfl) ?_
  refine Moves.bind htrans (hhost _) fun previous => Moves.bind htrans (hhost _) fun _ => ?_
  refine Moves.bind htrans (Moves.raiseIf hrefl _) fun _ => ?_
  refine Moves.tryFinally htrans ?_ (Moves.raiseIf hrefl _)
  refine Moves.bind htrans (Moves.get hrefl) fun s => ?_
  refine Moves.bind htrans (Moves.lift hrefl _) fun result => ?_
  exact Moves.bind htrans (fun _ => rfl) fun _ => hhost _

lemma runGeneric_results (name : String) (position : ℕ) (s : ScanState) :
    (final (runGeneric env name position) s).job.analyzerResults =
      s.job.analyzerResults ++ (env.analyze s.job.jobId position).toOption.toList := by
  unfold runGeneric
  cases hanalyze : env.analyze s.job.jobId position with
  | error exc => simp [final, tryCatch_apply, bind_apply, hanalyze, ScanJob.addError,
      Except.toOption]
  | ok result =>
      cases hfault : env.fault s.job.jobId (.saveAnalyzed position) <;>
        simp [final, tryCatch_apply, bind_apply, hanalyze, hfault, onHost, zoom,
          JobService.saveScannerStatus, ScanJob.addError, Except.toOption]

lemma runScanner_results (name : String) (position : ℕ) (s : ScanState) :
    (final (runScanner env name position) s).job.analyzerResults =
      s.job.analyzerResults ++ (genericResult env s.job.jobId name position).toList := by
  unfold runScanner genericResult
  by_cases hlate : name ∈ lateStages
  · simp [hlate, final]
  by_cases hgeneric : name ∈ env.genericAnalyzers
  · simp [hlate, hgeneric, runGeneric_results]
  by_cases hadapter : name ∈ env.adapters
  · simpa [hlate, hgeneric, hadapter, ResultsSame] using @runAdapter_results env name position s
  · simp [hlate, hgeneric, hadapter, final, ScanJob.addError]

/-- A loop that returns has collected the results of all generic analyzers. -/
lemma runScanners_results {requested : List String} {s t : ScanState}
    (h : runScanners env requested s = .ok () t) :
    t.job.analyzerResults = s.job.analyzerResults ++ genericResults env s.job.jobId requested := by
  unfold runScanners at h
  unfold genericResults
  generalize requested.zipIdx = items at h
  induction items generalizing s with
  | nil =>
      obtain ⟨-, rfl⟩ := EStateM.Result.ok.inj h
      simp
  | cons item items ih =>
      obtain ⟨flow, u, hbody, hrest⟩ := bind_eq_ok.1 h
      obtain ⟨⟨⟩, u', hscan, hflow⟩ := bind_eq_ok.1 hbody
      obtain ⟨rfl, rfl⟩ := EStateM.Result.ok.inj hflow
      have hresults := @runScanner_results env item.1 item.2 s
      have hid := (runScanner_moves env item.1 item.2 s).jobId
      rw [final_of_ok hscan] at hresults hid
      rw [ih hrest, hid, hresults, List.filterMap_cons]
      cases genericResult env s.job.jobId item.1 item.2 <;> simp

/-! ## The queries of a child -/

/-- The fingerprints of a log of queries. -/
def fingerprints (calls : List CorrelateCall) : List (Option String) :=
  calls.map (·.fingerprint)

/-- The four saves that bring a new job to RUNNING. -/
def Started (env : ScanEnv) (id : JobId) : Prop :=
  env.fault id .saveCreated = none ∧ env.fault id .saveStaged = none ∧
    env.fault id .saveQueued = none ∧ env.fault id .saveRunning = none

/-- The pass of a child gets to ask its one question. -/
def ChildAsks (env : ScanEnv) (cenv : CorrelationEnv) (requested : List String) (id : JobId) :
    Prop :=
  Started env id ∧ ScannersReturn env id requested ∧ "rab-correlation" ∈ requested ∧
    0 < cenv.maxObjects ∧ cenv.elapsed id 0 < cenv.totalDeadline

open Classical in
/-- What the pass of a child asks: one query, whose fingerprint the child's own similarity budget
lets through. -/
noncomputable def childQueries (env : ScanEnv) (cenv : CorrelationEnv) (requested : List String)
    (id : JobId) : List (Option String) :=
  if ChildAsks env cenv requested id then
    [affordable cenv 0 (ssdeep (genericResults env id requested))]
  else []

/-- The pass over a job without derived objects. -/
lemma plannedCalls_childless {job : ScanJob} (h : job.derivedObjects = []) :
    fingerprints (plannedCalls cenv job) =
      if 0 < cenv.maxObjects ∧ cenv.elapsed job.jobId 0 < cenv.totalDeadline then
        [affordable cenv 0 (ssdeep job.analyzerResults)]
      else [] := by
  have htargets : targets job = [⟨.root, job.inputArtifact, job.analyzerResults⟩] := by
    simp [targets, h]
  rw [plannedCalls, htargets, plannedFrom]
  by_cases hobjects : 0 < cenv.maxObjects
  · by_cases hdeadline : cenv.elapsed job.jobId 0 < cenv.totalDeadline
    · have hnot : ¬cenv.elapsed job.jobId 0 ≥ cenv.totalDeadline := by omega
      simp only [ge_iff_le, Nat.le_zero, Nat.ne_of_gt hobjects, hnot, if_false, hobjects,
        hdeadline, and_self, if_true]
      cases cenv.correlate job.jobId 0 <;> simp [fingerprints, plannedFrom]
    · have hpast : cenv.elapsed job.jobId 0 ≥ cenv.totalDeadline := by omega
      simp [hobjects, hdeadline, hpast, plannedFrom, fingerprints]
  · have hnone : cenv.maxObjects = 0 := by omega
    simp [hnone, plannedFrom, fingerprints]

/-- What creating a job does to the host: the id is used up either way. -/
lemma createQueued_end (artifact : InputArtifact) (label : String) (requested : List String)
    (host : Host) :
    match createQueued env artifact label requested host with
    | .ok job host' => env.fault host.nextJobId .saveCreated = none ∧
        env.fault host.nextJobId .saveStaged = none ∧
        env.fault host.nextJobId .saveQueued = none ∧
        (∃ applicable, job = { ScanJob.new host.nextJobId label artifact requested applicable with
          status := .queued }) ∧
        host'.nextJobId = host.nextJobId + 1 ∧ host'.correlateCalls = host.correlateCalls
    | .error _ host' => ¬(env.fault host.nextJobId .saveCreated = none ∧
        env.fault host.nextJobId .saveStaged = none ∧
        env.fault host.nextJobId .saveQueued = none) ∧
        host'.nextJobId = host.nextJobId + 1 ∧ host'.correlateCalls = host.correlateCalls := by
  cases hcreated : env.fault host.nextJobId .saveCreated with
  | some exc => simp [createQueued, freshJobId, bind_apply, hcreated]
  | none =>
      cases hstaged : env.fault host.nextJobId .saveStaged with
      | some exc =>
          simp [createQueued, freshJobId, bind_apply, hcreated, hstaged, withJob, onHost, zoom,
            JobService.transition, ScanJob.transition, ScanJob.new, transitions]
      | none =>
          cases hqueued : env.fault host.nextJobId .saveQueued <;>
            simp [createQueued, freshJobId, bind_apply, hcreated, hstaged, hqueued, withJob,
              onHost, zoom, JobService.transition, ScanJob.transition, ScanJob.new, transitions]

lemma runRecursion_of_not_mem {stages : Stages} {requested : List String} {source : Bytes}
    (h : "container" ∉ requested) (s : ScanState) :
    runRecursion stages requested source s = .ok () s := by
  unfold runRecursion
  cases stages.recursiveAnalyzer <;> simp [h]

lemma serviceStages_correlation (depth : ℕ) :
    (serviceStages env xenv cenv depth).correlationService =
      some (CorrelationService.process cenv) := by
  cases depth <;> rfl

/-- The correlation service adds its planned queries, where it is asked for. -/
lemma runCorrelation_log (depth : ℕ) (requested : List String) (s : ScanState) :
    (final (runCorrelation (serviceStages env xenv cenv depth) requested) s).host.nextJobId =
        s.host.nextJobId ∧
      fingerprints
          (final (runCorrelation (serviceStages env xenv cenv depth) requested)
            s).host.correlateCalls =
        fingerprints s.host.correlateCalls ++
          if "rab-correlation" ∈ requested then fingerprints (plannedCalls cenv s.job) else [] := by
  unfold runCorrelation
  rw [serviceStages_correlation]
  by_cases hasked : "rab-correlation" ∈ requested
  · simp only [hasked, if_true]
    rw [(process_frame cenv s).host]
    exact ⟨rfl, List.map_append⟩
  · simp only [hasked, if_false]
    exact ⟨rfl, (List.append_nil _).symm⟩

/-- The job of a child when its run begins: no objects derived from it, no results yet. -/
structure Childlike (job : ScanJob) : Prop where
  container : "container" ∉ job.requestedScanners
  derivedObjects : job.derivedObjects = []
  analyzerResults : job.analyzerResults = []

/-- The stages of a child ask at most once. -/
lemma analyze_childlike {depth : ℕ} {source : Bytes} {s : ScanState} (h : Childlike s.job)
    (hstarted : Started env s.job.jobId) :
    let t := final (analyze env (serviceStages env xenv cenv depth) s.job.requestedScanners
      source) s
    t.host.nextJobId = s.host.nextJobId ∧ fingerprints t.host.correlateCalls =
      fingerprints s.host.correlateCalls ++
        childQueries env cenv s.job.requestedScanners s.job.jobId := by
  intro t
  have hreturns := runScanners_returns env s.job.requestedScanners s
  have hframe := runScanners_moves env s.job.requestedScanners s
  cases hscan : runScanners env s.job.requestedScanners s with
  | error exc u =>
      have hnot : ¬ScannersReturn env s.job.jobId s.job.requestedScanners := fun hall =>
        not_returns_iff.2 ⟨exc, u, hscan⟩ (hreturns.2 hall)
      have ht : t = u := by
        simp only [t, analyze]
        rw [final_bind_of_error hscan]
      rw [final_of_error hscan] at hframe
      obtain ⟨hnext, hcalls⟩ := LogSame.of_scanners hframe
      rw [ht, childQueries, if_neg fun hasks => hnot hasks.2.1, hnext, hcalls]
      exact ⟨rfl, (List.append_nil _).symm⟩
  | ok _ u =>
      rw [final_of_ok hscan] at hframe
      have hall : ScannersReturn env s.job.jobId s.job.requestedScanners :=
        hreturns.1 (returns_of_ok hscan)
      obtain ⟨hnext, hcalls⟩ := LogSame.of_scanners hframe
      obtain ⟨hlognext, hlog⟩ := @runCorrelation_log env xenv cenv depth s.job.requestedScanners
        ⟨takeRootVerdict u.job, u.host⟩
      have ht : t = final (runCorrelation (serviceStages env xenv cenv depth)
          s.job.requestedScanners) ⟨takeRootVerdict u.job, u.host⟩ := by
        simp only [t, analyze]
        rw [final_bind_of_ok hscan, final_bind_of_ok (updateJob_apply takeRootVerdict u),
          final_bind_of_ok (runRecursion_of_not_mem h.container _)]
      have hresults : u.job.analyzerResults =
          genericResults env s.job.jobId s.job.requestedScanners := by
        rw [runScanners_results hscan, h.analyzerResults, List.nil_append]
      have hchildless : (takeRootVerdict u.job).derivedObjects = [] :=
        hframe.derivedObjects.trans h.derivedObjects
      have hplanned := @plannedCalls_childless cenv _ hchildless
      refine ⟨by rw [ht, hlognext, hnext], ?_⟩
      rw [ht, hlog, hplanned]
      simp only [takeRootVerdict, hcalls, hframe.jobId, hresults, childQueries, ChildAsks,
        hstarted, hall, true_and]
      split_ifs <;> simp_all

/-- Some children were created, and each has asked what it asks. -/
def ChildrenAsked (env : ScanEnv) (cenv : CorrelationEnv) (requested : List String)
    (host host' : Host) : Prop :=
  ∃ count, host'.nextJobId = host.nextJobId + count ∧
    fingerprints host'.correlateCalls = fingerprints host.correlateCalls ++
      (List.range' host.nextJobId count).flatMap (childQueries env cenv requested)

namespace ChildrenAsked

variable {requested : List String}

lemma refl (host : Host) : ChildrenAsked env cenv requested host host := ⟨0, by simp⟩

lemma trans {host host' host'' : Host} (h : ChildrenAsked env cenv requested host host')
    (h' : ChildrenAsked env cenv requested host' host'') :
    ChildrenAsked env cenv requested host host'' := by
  obtain ⟨count, hnext, hlog⟩ := h
  obtain ⟨count', hnext', hlog'⟩ := h'
  refine ⟨count + count', by rw [hnext', hnext, Nat.add_assoc], ?_⟩
  rw [hlog', hlog, hnext, List.append_assoc, ← List.flatMap_append, List.range'_append_1]

/-- One child. -/
lemma one {host host' : Host} (hnext : host'.nextJobId = host.nextJobId + 1)
    (hlog : fingerprints host'.correlateCalls = fingerprints host.correlateCalls ++
      childQueries env cenv requested host.nextJobId) :
    ChildrenAsked env cenv requested host host' := ⟨1, hnext, by simp [hlog]⟩

end ChildrenAsked

lemma childQueries_of_not_started {requested : List String} {id : JobId} (h : ¬Started env id) :
    childQueries env cenv requested id = [] := if_neg fun hasks => h hasks.1

lemma final_withJob (job : ScanJob) (x : EStateM Exc ScanState Unit) (host : Host) :
    final (withJob job x) host = (final x ⟨job, host⟩).host := by
  simp only [withJob, final]
  cases hrun : x ⟨job, host⟩ <;> simp

/-- The scan of a child: one more job, and what it asks. -/
lemma scanChild_asks {artifact : InputArtifact} {label : String} {requested : List String}
    {content : Bytes} {depth : ℕ} (hcontainer : "container" ∉ requested) (host : Host) :
    ChildrenAsked env cenv requested host (final (ContainerAnalyzer.scanChild
      (scansOf env (serviceStages env xenv cenv depth)) artifact label
        requested content) host) := by
  have hend := @createQueued_end env artifact label requested host
  unfold ContainerAnalyzer.scanChild
  cases hcreate : createQueued env artifact label requested host with
  | error exc host' =>
      rw [hcreate] at hend
      obtain ⟨hnot, hnext, hcalls⟩ := hend
      rw [final_bind_of_error (show (scansOf env _).createQueued artifact label requested host = _
        from hcreate)]
      refine .one hnext ?_
      rw [childQueries_of_not_started fun h => hnot ⟨h.1, h.2.1, h.2.2.1⟩, hcalls, List.append_nil]
  | ok job host' =>
      rw [hcreate] at hend
      obtain ⟨hcreated, hstaged, hqueued, ⟨applicable, rfl⟩, hnext, hcalls⟩ := hend
      rw [final_bind_of_ok (show (scansOf env _).createQueued artifact label requested host = _
        from hcreate)]
      simp only [scansOf, executeQueued, final_withJob]
      set job : ScanJob :=
        { ScanJob.new host.nextJobId label artifact requested applicable with status := .queued }
      by_cases hsaved : env.fault host.nextJobId .saveRunning = none
      · obtain ⟨hsame, hcallssame⟩ := @execute_log env (serviceStages env xenv cenv depth) content
          ⟨job, host'⟩ rfl hsaved
        obtain ⟨hlast, hlog⟩ := @analyze_childlike env xenv cenv depth content
          (running ⟨job, host'⟩) ⟨hcontainer, rfl, rfl⟩ ⟨hcreated, hstaged, hqueued, hsaved⟩
        refine .one ?_ ?_
        · rw [hsame]
          exact hlast.trans hnext
        · rw [hcallssame]
          exact hlog.trans (by rw [← hcalls]; rfl)
      · obtain ⟨exc, hrun⟩ := @execute_of_not_saved env content ⟨job, host'⟩
          (serviceStages env xenv cenv depth) rfl hsaved
        rw [final_of_error hrun]
        refine .one hnext ?_
        rw [childQueries_of_not_started fun h => hsaved h.2.2.2, hcalls, List.append_nil]

/-! ## The recursion -/

lemma apply_scans {ω : Type} (s : ExtractState ω) (write : Write) :
    (write.apply s).scans = s.scans := by
  cases write <;> rfl

lemma childScanners_not_container (job : ScanJob) :
    "container" ∉ ContainerAnalyzer.childScanners job := by
  simp [ContainerAnalyzer.childScanners]

/-- The children of an extraction ask one after the other, by induction on its steps. -/
lemma steps_asks {depth : ℕ} {s t : ExtractState Host}
    (h : ContainerAnalyzer.Steps xenv (scansOf env (serviceStages env xenv cenv depth)) s t) :
    ChildrenAsked env cenv (ContainerAnalyzer.childScanners s.job) s.scans t.scans := by
  induction h with
  | refl => exact .refl _
  | tail hinit hlast ih =>
      have hrequested := (ContainerAnalyzer.Steps.grows hinit).requested
      refine ih.trans ?_
      cases hlast with
      | write write _ =>
          rw [apply_scans]
          exact .refl _
      | scan artifact label content =>
          rw [show ContainerAnalyzer.childScanners s.job = ContainerAnalyzer.childScanners _ from
            congrArg (List.filter _) hrequested.symm]
          exact scanChild_asks (childScanners_not_container _) _

lemma containerStage_asks (depth : ℕ) (source : Bytes) (s : ScanState) :
    ChildrenAsked env cenv (ContainerAnalyzer.childScanners s.job) s.host
      (final (containerStage xenv (scansOf env (serviceStages env xenv cenv depth)) source)
        s).host := by
  obtain ⟨t, hsteps, hfinal⟩ := ContainerAnalyzer.process_steps xenv
    (scansOf env (serviceStages env xenv cenv depth)) source (.fresh s.job s.host)
  have hstage : (final (containerStage xenv (scansOf env (serviceStages env xenv cenv depth))
      source) s).host = t.scans := by
    rw [final_containerStage, hfinal]
    rfl
  rw [hstage]
  exact steps_asks hsteps

/-- Up to the correlation service only children ask. -/
lemma beforeCorrelation_asks (depth : ℕ) (requested : List String) (source : Bytes)
    (s : ScanState) : ChildrenAsked env cenv (ContainerAnalyzer.childScanners s.job) s.host
      (final (beforeCorrelation env (serviceStages env xenv cenv (depth + 1)) requested source)
        s).host := by
  have hframe := runScanners_moves env requested s
  have hscanned : ∀ u, ScannerFrame s u →
      ChildrenAsked env cenv (ContainerAnalyzer.childScanners s.job) s.host u.host := by
    intro u hu
    obtain ⟨hnext, hcalls⟩ := LogSame.of_scanners hu
    exact ⟨0, by rw [hnext, Nat.add_zero], by simp [hcalls]⟩
  unfold beforeCorrelation
  cases hscan : runScanners env requested s with
  | error exc u =>
      rw [final_of_error hscan] at hframe
      rw [final_bind_of_error hscan]
      exact hscanned u hframe
  | ok _ u =>
      rw [final_of_ok hscan] at hframe
      rw [final_bind_of_ok hscan, final_bind_of_ok (updateJob_apply takeRootVerdict u)]
      refine (hscanned u hframe).trans ?_
      unfold runRecursion
      by_cases hcontainer : "container" ∈ requested
      · have hstage := @containerStage_asks env xenv cenv depth source
          ⟨takeRootVerdict u.job, u.host⟩
        rw [show ContainerAnalyzer.childScanners (takeRootVerdict u.job) =
          ContainerAnalyzer.childScanners s.job from congrArg (List.filter _) hframe.requested]
          at hstage
        simp only [serviceStages, hcontainer, if_true]
        cases hrun : containerStage xenv (scansOf env (serviceStages env xenv cenv depth)) source
            ⟨takeRootVerdict u.job, u.host⟩ with
        | error exc v =>
            rw [final_bind_of_error hrun]
            rwa [final_of_error hrun] at hstage
        | ok _ v =>
            rw [final_bind_of_ok hrun]
            rwa [final_of_ok hrun] at hstage
      · simp only [serviceStages, hcontainer, if_false]
        exact .refl _

/-! ## The budget of a submission -/

/-- The two budgets of the correlation service. -/
def WithinBudget (cenv : CorrelationEnv) (queries : List (Option String)) : Prop :=
  queries.length ≤ cenv.maxObjects ∧ (queries.filter carries).length ≤ cenv.maxSimilarityQueries

instance (queries : List (Option String)) : Decidable (WithinBudget cenv queries) :=
  inferInstanceAs (Decidable (_ ∧ _))

/-- The queries between two states of the host. -/
def madeQueries (s s' : ScanState) : List (Option String) :=
  fingerprints (s'.host.correlateCalls.drop s.host.correlateCalls.length)

lemma madeQueries_of_log {s s' : ScanState} {queries : List (Option String)}
    (h : fingerprints s'.host.correlateCalls = fingerprints s.host.correlateCalls ++ queries) :
    madeQueries s s' = queries := by
  have hlength : (fingerprints s.host.correlateCalls).length = s.host.correlateCalls.length :=
    List.length_map _
  simp only [madeQueries, fingerprints, List.map_drop] at h ⊢
  rw [h, ← hlength]
  exact List.drop_left

/-- The children that jobs were created for. -/
def childIds (s s' : ScanState) : List JobId :=
  List.range' s.host.nextJobId (s'.host.nextJobId - s.host.nextJobId)

open Classical in
/-- The children whose own pass gets to ask. -/
noncomputable def askingChildren (env : ScanEnv) (cenv : CorrelationEnv) (s s' : ScanState) :
    List JobId :=
  (childIds s s').filter fun id =>
    decide (ChildAsks env cenv (ContainerAnalyzer.childScanners s.job) id)

/-- Those of them that a fingerprint is known of, where any may be sent. -/
noncomputable def fingerprintedChildren (env : ScanEnv) (cenv : CorrelationEnv)
    (s s' : ScanState) : List JobId :=
  (askingChildren env cenv s s').filter fun id =>
    carries (ssdeep (genericResults env id (ContainerAnalyzer.childScanners s.job))) &&
      decide (0 < cenv.maxSimilarityQueries)

/-- The children that ask and the objects of the finished graph that the pass over it comes to fit
into the budgets together, unless no child asks. -/
structure QueriesFit (env : ScanEnv) (cenv : CorrelationEnv) (s s' : ScanState) : Prop where
  objects : askingChildren env cenv s s' = [] ∨
    (askingChildren env cenv s s').length +
      (inTime cenv s'.job.jobId 0 (targets s'.job)).length ≤ cenv.maxObjects
  fingerprints : fingerprintedChildren env cenv s s' = [] ∨
    (fingerprintedChildren env cenv s s').length +
      (fingerprinted (inTime cenv s'.job.jobId 0 (targets s'.job))).length ≤
        cenv.maxSimilarityQueries

/-- Lists of one element at most. -/
lemma length_flatMap_of_ite {α β : Type} {f : α → List β} {p : α → Bool}
    (h : ∀ a, (f a).length = if p a then 1 else 0) (items : List α) :
    (items.flatMap f).length = (items.filter p).length := by
  rw [← List.countP_eq_length_filter]
  induction items with
  | nil => rfl
  | cons a items ih => rw [List.flatMap_cons, List.length_append, h, ih, List.countP_cons,
      Nat.add_comm]

/-- What the children ask, counted. -/
lemma length_childQueries (s s' : ScanState) :
    let queries := (childIds s s').flatMap
      (childQueries env cenv (ContainerAnalyzer.childScanners s.job))
    queries.length = (askingChildren env cenv s s').length ∧
      (queries.filter carries).length = (fingerprintedChildren env cenv s s').length := by
  refine ⟨length_flatMap_of_ite (fun id => ?_) _, ?_⟩
  · by_cases hasks : ChildAsks env cenv (ContainerAnalyzer.childScanners s.job) id <;>
      simp [childQueries, hasks]
  · rw [List.filter_flatMap, fingerprintedChildren, askingChildren, List.filter_filter]
    refine length_flatMap_of_ite (fun id => ?_) _
    have hcarries := carries_affordable cenv 0
      (ssdeep (genericResults env id (ContainerAnalyzer.childScanners s.job)))
    rw [childQueries]
    split_ifs with hasks hknown hknown
    · simp_all
    · simp_all
    · simp_all
    · rfl

/-- What the passes of a submission ask: the children, and the root, whose pass may not be
reached. -/
structure Asked (env : ScanEnv) (cenv : CorrelationEnv) (s s' : ScanState)
    (root : List CorrelateCall) : Prop where
  queries : madeQueries s s' = (childIds s s').flatMap
    (childQueries env cenv (ContainerAnalyzer.childScanners s.job)) ++ fingerprints root
  planned : root = [] ∨ root = plannedCalls cenv s'.job

section Asked

variable {s s' : ScanState} {root : List CorrelateCall}

lemma Asked.counts (h : Asked env cenv s s' root) :
    (madeQueries s s').length =
        (askingChildren env cenv s s').length + root.length ∧
      ((madeQueries s s').filter carries).length =
        (fingerprintedChildren env cenv s s').length + (similarityCalls root).length := by
  obtain ⟨hasking, hknown⟩ := @length_childQueries env cenv s s'
  rw [h.queries, List.filter_append, List.length_append, List.length_append, hasking, hknown]
  simp [fingerprints, similarityCalls, List.filter_map, Function.comp_def]

/-- What fits together stays within the budgets. -/
lemma Asked.within (h : Asked env cenv s s' root) (hfits : QueriesFit env cenv s s') :
    WithinBudget cenv (madeQueries s s') := by
  obtain ⟨hlength, hcarries⟩ := h.counts
  have hroot : root.length ≤ cenv.maxObjects ∧
      (similarityCalls root).length ≤ cenv.maxSimilarityQueries ∧
      root.length ≤ (inTime cenv s'.job.jobId 0 (targets s'.job)).length ∧
      (similarityCalls root).length ≤
        (fingerprinted (inTime cenv s'.job.jobId 0 (targets s'.job))).length := by
    rcases h.planned with rfl | rfl
    · exact ⟨Nat.zero_le _, Nat.zero_le _, Nat.zero_le _, Nat.zero_le _⟩
    · obtain ⟨hobjects, hsimilar⟩ := plannedCalls_le cenv s'.job
      exact ⟨hobjects, hsimilar, plannedFrom_inTime_le cenv _ _ _ _⟩
  rw [WithinBudget, hlength, hcarries]
  constructor
  · rcases hfits.objects with hnone | hfit
    · rw [hnone, List.length_nil]
      omega
    · omega
  · rcases hfits.fingerprints with hnone | hfit
    · rw [hnone, List.length_nil]
      omega
    · omega

/-- A pass that returns asks about everything it can, so nothing else does. -/
lemma Asked.fits (h : Asked env cenv s s' (plannedCalls cenv s'.job))
    (hclock : Monotone (cenv.elapsed s'.job.jobId)) {u v : ScanState}
    (hpass : processFrom cenv s'.job.jobId 0 0 (targets s'.job) u = .ok () v)
    (hwithin : WithinBudget cenv (madeQueries s s')) : QueriesFit env cenv s s' := by
  obtain ⟨hlength, hcarries⟩ := h.counts
  rw [WithinBudget, hlength, hcarries] at hwithin
  have hroot := plannedFrom_length_of_ok cenv hclock hpass
  rw [← plannedCalls] at hroot
  have hobjects : askingChildren env cenv s s' = [] ∨
      (askingChildren env cenv s s').length +
        (inTime cenv s'.job.jobId 0 (targets s'.job)).length ≤ cenv.maxObjects := by
    rw [← List.length_eq_zero_iff]
    omega
  refine ⟨hobjects, ?_⟩
  rcases hobjects with hnone | hfit
  · exact .inl (by rw [fingerprintedChildren, hnone]; rfl)
  · have hsimilar := similarityCalls_length_of_ok cenv hclock (by omega) hpass
    rw [← plannedCalls] at hsimilar
    rw [← List.length_eq_zero_iff]
    omega

end Asked

/-- The stages of a submission make the queries of its children, then those of its own pass. -/
lemma analyze_asks {depth : ℕ} {requested : List String} {source : Bytes} {s : ScanState}
    (hasked : "rab-correlation" ∈ requested) :
    let t := final (analyze env (serviceStages env xenv cenv (depth + 1)) requested source) s
    ∃ count root, t.host.nextJobId = s.host.nextJobId + count ∧
      fingerprints t.host.correlateCalls = fingerprints s.host.correlateCalls ++
        ((List.range' s.host.nextJobId count).flatMap
          (childQueries env cenv (ContainerAnalyzer.childScanners s.job)) ++ fingerprints root) ∧
      (root = [] ∨ root = plannedCalls cenv t.job) ∧
      (Returns (analyze env (serviceStages env xenv cenv (depth + 1)) requested source) s →
        root = plannedCalls cenv t.job ∧
          ∃ u v, processFrom cenv t.job.jobId 0 0 (targets t.job) u = .ok () v) := by
  intro t
  obtain ⟨count, hnext, hlog⟩ := @beforeCorrelation_asks env xenv cenv depth requested source s
  have hanalyze := @analyze_apply env (serviceStages env xenv cenv (depth + 1)) requested source s
  cases hgraph : beforeCorrelation env (serviceStages env xenv cenv (depth + 1)) requested source s
    with
  | error exc graph =>
      rw [bind_of_error hgraph] at hanalyze
      rw [final_of_error hgraph] at hnext hlog
      have ht : t = graph := final_of_error hanalyze
      refine ⟨count, [], ht ▸ hnext, ?_, .inl rfl, fun hreturns => ?_⟩
      · rw [ht, hlog]
        simp [fingerprints]
      · exact absurd hreturns (not_returns_iff.2 ⟨exc, graph, hanalyze⟩)
  | ok a graph =>
      rw [bind_of_ok hgraph] at hanalyze
      rw [final_of_ok hgraph] at hnext hlog
      have hpass : runCorrelation (serviceStages env xenv cenv (depth + 1)) requested graph =
          process cenv graph := by
        rw [runCorrelation, serviceStages_correlation]
        exact congrFun (if_pos hasked) graph
      rw [hpass] at hanalyze
      have ht : t = final (process cenv) graph := by
        simp only [t, final, hanalyze]
      have hframe := process_frame cenv graph
      rw [← ht] at hframe
      have hid : t.job.jobId = graph.job.jobId := by
        obtain ⟨⟨context, derived, hjob, -⟩, -⟩ := hframe
        rw [hjob]
      have hplanned : plannedCalls cenv graph.job = plannedCalls cenv t.job := by
        rw [plannedCalls, plannedCalls, hid, hframe.targets]
      refine ⟨count, plannedCalls cenv t.job, ?_, ?_, .inr rfl, fun hreturns => ⟨rfl, ?_⟩⟩
      · rw [hframe.host]
        exact hnext
      · rw [hframe.host, ← hplanned]
        simp only [fingerprints, List.map_append] at hlog ⊢
        rw [hlog, List.append_assoc]
      · obtain ⟨⟨⟩, v, hrun⟩ := returns_iff.1 hreturns
        refine ⟨graph, v, ?_⟩
        rw [hid, hframe.targets, ← hrun, hanalyze]
        rfl

/-- What a run of a submission asks. -/
lemma execute_asks {depth : ℕ} {source : Bytes} {s : ScanState}
    (hasked : "rab-correlation" ∈ s.job.requestedScanners) :
    let t := final (execute env (serviceStages env xenv cenv (depth + 1)) source) s
    (madeQueries s t = [] ∧ childIds s t = []) ∨ ∃ root, Asked env cenv s t root ∧
      (Returns (analyze env (serviceStages env xenv cenv (depth + 1)) s.job.requestedScanners
          source) (running s) → root = plannedCalls cenv t.job ∧
        ∃ u v, processFrom cenv t.job.jobId 0 0 (targets t.job) u = .ok () v) := by
  intro t
  have hidle : t.host = s.host → madeQueries s t = [] ∧ childIds s t = [] := fun hhost =>
    ⟨madeQueries_of_log (by rw [hhost, List.append_nil]), by simp [childIds, hhost]⟩
  by_cases hqueued : s.job.status = .queued
  · by_cases hsaved : env.fault s.job.jobId .saveRunning = none
    · obtain ⟨count, root, hnext, hlog, hplanned, hreturns⟩ := @analyze_asks env xenv cenv depth
        s.job.requestedScanners source (running s) hasked
      obtain ⟨hnext', hlog'⟩ := @execute_log env (serviceStages env xenv cenv (depth + 1)) source
        s hqueued hsaved
      have hjob := @execute_untouched env source s _ (fun job => (job.jobId, targets job))
        (serviceStages env xenv cenv (depth + 1)) ⟨fun _ _ => rfl, fun _ _ => rfl, fun _ _ => rfl⟩
        hqueued hsaved
      obtain ⟨hid, htargets⟩ := Prod.mk.inj hjob
      have hcalls : plannedCalls cenv t.job = plannedCalls cenv
          (final (analyze env (serviceStages env xenv cenv (depth + 1)) s.job.requestedScanners
            source) (running s)).job := by
        rw [plannedCalls, plannedCalls, hid, htargets]
      have hids : childIds s t = List.range' s.host.nextJobId count := by
        rw [childIds, hnext', hnext]
        exact congrArg (List.range' s.host.nextJobId) (Nat.add_sub_cancel_left ..)
      refine .inr ⟨root, ⟨madeQueries_of_log ?_, hcalls ▸ hplanned⟩, ?_⟩
      · rw [hids, hlog']
        exact hlog
      · rw [hcalls, hid, htargets]
        exact hreturns
    · obtain ⟨exc, hrun⟩ := @execute_of_not_saved env source s
        (serviceStages env xenv cenv (depth + 1)) hqueued hsaved
      exact .inl (hidle (by simp only [t]; rw [final_of_error hrun]))
  · have hrun : execute env (serviceStages env xenv cenv (depth + 1)) source s =
        .error (.value "job must be QUEUED before execution") s := by
      rw [execute, get_bind_apply, if_pos hqueued]
      rfl
    exact .inl (hidle (by simp only [t]; rw [final_of_error hrun]))

/-- A submission whose children and whose finished graph fit into the budgets together stays within
them, and where its stages return, only such a one does: the pass of each child starts with a fresh
count. -/
theorem submission_budget {depth : ℕ} {source : Bytes} {s : ScanState}
    (hrequested : ["container", "rab-correlation"] ⊆ s.job.requestedScanners) :
    let t := final (execute env (serviceStages env xenv cenv (depth + 1)) source) s
    (QueriesFit env cenv s t → WithinBudget cenv (madeQueries s t)) ∧
      (Returns (analyze env (serviceStages env xenv cenv (depth + 1)) s.job.requestedScanners
          source) (running s) → (∀ id, Monotone (cenv.elapsed id)) →
        WithinBudget cenv (madeQueries s t) → QueriesFit env cenv s t) := by
  intro t
  rcases @execute_asks env xenv cenv depth source s (hrequested (by simp)) with
    ⟨hqueries, hids⟩ | ⟨root, hasked, hpass⟩
  · refine ⟨fun _ => ?_, fun _ _ _ => ?_⟩
    · rw [hqueries]
      exact ⟨Nat.zero_le _, Nat.zero_le _⟩
    · have hnone : askingChildren env cenv s t = [] := by rw [askingChildren, hids]; rfl
      exact ⟨.inl hnone, .inl (by rw [fingerprintedChildren, hnone]; rfl)⟩
  · refine ⟨hasked.within, fun hreturns hclock hwithin => ?_⟩
    obtain ⟨rfl, u, v, hrun⟩ := hpass hreturns
    exact hasked.fits (hclock _) hrun hwithin

/-! ### A compressed file under a budget of one object -/

/-- The letter A, compressed by gzip. -/
def compressedLetter : Bytes :=
  [0x1F, 0x8B, 0x08, 0, 0, 0, 0, 0, 0, 0x03, 0x73, 0x04, 0, 0x8B, 0x9E, 0xD9, 0xD3, 1, 0, 0, 0]

/-- A service without scanners, whose calls all work. -/
def bareEnv : ScanEnv where
  adapters := []
  genericAnalyzers := []
  analyze := fun _ _ => .error (.runtime "not a generic analyzer")
  probe := fun _ _ => .error (.runtime "not an adapter")
  prepare := fun _ _ => none
  runPrepared := fun _ _ => .error (.runtime "not an adapter")
  cleanup := fun _ _ => none
  fault := fun _ _ => none
  admitFault := fun _ _ => none
  sourceAfter := fun _ => .ok compressedLetter
  sha256 := fun _ => Hashes.empty.sha256

/-- A gzip decoder for that file. -/
def letterEnv : ExtractEnv :=
  { ExtractEnv.plain with openCompressed := fun _ _ => .ok (.ofBytes [0x41]) }

/-- A provider that knows every object. -/
def providerEnv (maxObjects : ℕ) : CorrelationEnv where
  providerId := "provider"
  providerVersion := "1"
  maxObjects := maxObjects
  maxSimilarityQueries := 100
  totalDeadline := 30
  elapsed := fun _ _ => 0
  correlate := fun _ _ => .ok ⟨"provider", "1", .complete, none⟩

/-- The submission of the file for extraction and correlation. -/
def letterSubmission : ScanState where
  job := { containerJob compressedLetter with
    status := .queued
    requestedScanners := ["container", "rab-correlation"] }
  host := ⟨fun _ => none, fun _ => none, fun _ => none, fun _ => false, 1, []⟩

/-- The queries made for the submission. -/
def letterQueries (maxObjects : ℕ) : List (Option String) :=
  madeQueries letterSubmission (final (execute bareEnv
    (serviceStages bareEnv letterEnv (providerEnv maxObjects) 1) compressedLetter)
    letterSubmission)

/-- The service with an analyzer that reports a fingerprint of every object. -/
def fingerprintEnv : ScanEnv :=
  { bareEnv with
    genericAnalyzers := ["similarity"]
    analyze := fun _ _ =>
      .ok ⟨"complete", [], none, none, none, none, [⟨"similarity.ssdeep", .dict (some "3:t:t")⟩]⟩ }

/-- The submission of the file for all of them. -/
def fingerprintSubmission : ScanState where
  job := { containerJob compressedLetter with
    status := .queued
    requestedScanners := ["similarity", "container", "rab-correlation"] }
  host := ⟨fun _ => none, fun _ => none, fun _ => none, fun _ => false, 1, []⟩

/-- Under a budget of three objects the child and the graph of two objects fit together, and so do
their three fingerprints. -/
theorem letter_within_three :
    let t := final (execute fingerprintEnv
      (serviceStages fingerprintEnv letterEnv (providerEnv 3) 1) compressedLetter)
      fingerprintSubmission
    (madeQueries fingerprintSubmission t).length = 3 ∧
      WithinBudget (providerEnv 3) (madeQueries fingerprintSubmission t) ∧
      QueriesFit fingerprintEnv (providerEnv 3) fingerprintSubmission t := by
  intro t
  have hchildren : (childIds fingerprintSubmission t).length = 1 := by decide +kernel
  have hasking : (askingChildren fingerprintEnv (providerEnv 3) fingerprintSubmission t).length ≤
      1 := hchildren ▸ List.length_filter_le _ _
  have hknown : (fingerprintedChildren fingerprintEnv (providerEnv 3) fingerprintSubmission
      t).length ≤ 1 := (List.length_filter_le _ _).trans hasking
  have hobjects : (inTime (providerEnv 3) t.job.jobId 0 (targets t.job)).length = 2 := by
    decide +kernel
  have hsimilar : (fingerprinted (inTime (providerEnv 3) t.job.jobId 0
      (targets t.job))).length = 2 := by decide +kernel
  have hfits : QueriesFit fingerprintEnv (providerEnv 3) fingerprintSubmission t :=
    ⟨.inr (hobjects ▸ Nat.add_le_add_right hasking 2),
      .inr (hsimilar ▸ (Nat.add_le_add_right hknown 2).trans (by decide))⟩
  obtain ⟨hwithin, hfit⟩ := @submission_budget fingerprintEnv letterEnv (providerEnv 3) 0
    compressedLetter fingerprintSubmission (by decide)
  have hreturns : Returns (analyze fingerprintEnv (serviceStages fingerprintEnv letterEnv
      (providerEnv 3) 1) fingerprintSubmission.job.requestedScanners compressedLetter)
      (running fingerprintSubmission) := by decide +kernel
  exact ⟨by decide +kernel, hwithin hfits,
    hfit hreturns (fun _ => monotone_const) (hwithin hfits)⟩

/-- Under a budget of one object the provider is asked twice: by the pass of the child, and by the
pass of the root. -/
theorem letter_exceeds_one : ¬WithinBudget (providerEnv 1) (letterQueries 1) := by decide +kernel

end ScanService

end AVBox
