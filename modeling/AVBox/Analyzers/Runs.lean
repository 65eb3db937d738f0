import AVBox.Analyzers.Steps

/-!
# Every run is made of steps

The structural theorem about `ContainerAnalyzer.process`: whatever the decoders answer, the run
goes through allowed steps only, a part that returns has closed every partition it opened and
reported what it caught, and a part that raises has met an exception no clause around its call
names.  There is one lemma for each function of the source.
-/

namespace AVBox

open Program

namespace ContainerAnalyzer

variable {ω : Type} {env : ExtractEnv} {scans : Scans ω}

lemma escaped_decode {site : DecodeSite} (h : site.guards = []) {exc : Exc}
    (s : ExtractState ω) : Escaped env scans exc s ((Write.failed site exc).apply s) :=
  escaped_failed (by simp [Guarded, h]) s

/-! ## Limits -/

lemma expired_apply (s : ExtractState ω) :
    expired env s = .ok (decide (env.elapsed s.ticks > env.budget.maxExtractionTimeSeconds))
      (Write.tick.apply s) := rfl

lemma canStartChild_of_lt {s : ExtractState ω}
    (h : s.usage.childrenMaterialized < env.budget.maxTotalChildren) :
    canStartChild env s = .ok true s := by
  simp only [canStartChild, get_bind_apply, ge_iff_le, Nat.not_le.2 h, if_false]
  rfl

lemma canStartChild_of_ge {s : ExtractState ω}
    (h : env.budget.maxTotalChildren ≤ s.usage.childrenMaterialized) :
    canStartChild env s =
      .ok false ((Write.event "TOTAL_CHILD_COUNT_LIMIT").apply s) := by
  simp only [canStartChild, get_bind_apply, ge_iff_le, h, if_true]
  rfl

lemma canStartChild_runs : Runs env scans (canStartChild env : Extract ω Bool) := by
  refine Ends.get_bind fun s => Ends.ite (fun _ => ?_) fun _ => Ends.pure (composes _ _) _
  exact Ends.bind (composes _ _) (runs_limit _) fun _ => Ends.pure (composes _ _) _

lemma expired_runs : Runs env scans (expired env : Extract ω Bool) := by
  refine Ends.get_bind fun s => ?_
  exact Ends.bind (composes _ _) (runs_perform rfl fun _ => trivial) fun _ =>
    Ends.pure (composes _ _) _

/-! ## Materialising -/

/-- A part of an extraction that starts no child and stores no bytes. -/
structure Still (env : ExtractEnv) (scans : Scans ω) (s t : ExtractState ω) : Prop where
  completed : Completed env scans s t
  materialized : t.usage.childrenMaterialized = s.usage.childrenMaterialized
  extracted : t.usage.totalExtractedBytes = s.usage.totalExtractedBytes

lemma Still.refl (s : ExtractState ω) : Still env scans s s := ⟨.refl s, rfl, rfl⟩

lemma Still.trans {s t u : ExtractState ω} (h : Still env scans s t) (h' : Still env scans t u) :
    Still env scans s u :=
  ⟨h.completed.trans h'.completed, h'.materialized.trans h.materialized,
    h'.extracted.trans h.extracted⟩

lemma still_event (event : String) (s : ExtractState ω) :
    Still env scans s ((Write.event event).apply s) :=
  ⟨completed_write rfl trivial, by simp [Write.apply, Write.change],
    by simp [Write.apply, Write.change]⟩

lemma still_tick (s : ExtractState ω) : Still env scans s (Write.tick.apply s) :=
  ⟨completed_write rfl trivial, rfl, rfl⟩

lemma still_created (s : ExtractState ω) : Still env scans s (Write.created.apply s) :=
  ⟨completed_write rfl trivial, rfl, rfl⟩

lemma still_read (chunk : ChunkRead) (s : ExtractState ω) :
    Still env scans s ((Write.read chunk).apply s) :=
  ⟨completed_write rfl trivial, rfl, rfl⟩

lemma still_wrote (length : ℕ) (s : ExtractState ω) :
    Still env scans s ((Write.wrote length).apply s) :=
  ⟨completed_write rfl trivial, rfl, rfl⟩

lemma still_unlinked (s : ExtractState ω) : Still env scans s (Write.unlinked.apply s) :=
  ⟨completed_write rfl trivial, rfl, rfl⟩

/-- What the checks on the chunks of a child have established. -/
structure InLimits (env : ExtractEnv) (usage : ExtractionUsage) (content : Bytes) : Prop where
  single : content.length ≤ env.budget.maxSingleChildBytes
  total : content ≠ [] → usage.totalExtractedBytes + content.length ≤
    env.budget.maxTotalExtractedBytes

lemma chunkLimit_eq_none {usage : ExtractionUsage} {parentSize : ℕ} {content chunk : Bytes}
    (h : chunkLimit env usage parentSize content.length chunk = none) :
    InLimits env usage (content ++ chunk) := by
  unfold chunkLimit at h
  simp only at h
  split at h
  · cases h
  · split at h
    · cases h
    · exact ⟨by simp; omega, fun _ => by simp; omega⟩

/-- How the loop over the chunks ends: when it has read a stream, the file holds that. -/
def ReadEnd (env : ExtractEnv) (scans : Scans ω) (content : Bytes) (s : ExtractState ω) :
    EStateM.Result Exc (ExtractState ω) (Option Bytes) → Prop
  | .ok none t => Still env scans s t
  | .ok (some read) t => Still env scans s t ∧ read = content ∧ InLimits env t.usage read ∧
      t.trace.unfinished = read.length
  | .error exc t => Escaped env scans exc s t

lemma ReadEnd.of_still {content : Bytes} {s t : ExtractState ω}
    {r : EStateM.Result Exc (ExtractState ω) (Option Bytes)} (h : Still env scans s t)
    (h' : ReadEnd env scans content t r) : ReadEnd env scans content s r := by
  match r with
  | .ok none u => exact h.trans h'
  | .ok (some read) u => exact ⟨h.trans h'.1, h'.2⟩
  | .error exc u => exact h.completed.escaped h'

lemma readChunks_end (parentSize : ℕ) (fault : Option Exc) (chunks : List Bytes) (content : Bytes)
    (s : ExtractState ω) (hin : InLimits env s.usage content)
    (hopen : s.trace.unfinished = content.length) :
    ReadEnd env scans (content ++ chunks.flatten) s
      (readChunks env parentSize fault chunks content s) := by
  induction chunks generalizing content s with
  | nil =>
      cases fault with
      | none =>
          simp only [List.flatten_nil, List.append_nil]
          exact ⟨Still.refl s, rfl, hin, hopen⟩
      | some exc => exact escaped_decode rfl s
  | cons chunk chunks ih =>
      simp only [readChunks, get_bind_apply, perform, modify_bind_apply]
      generalize (⟨chunk, content.length, parentSize, s.usage, s.ticks⟩ : ChunkRead) = read
      refine ReadEnd.of_still (still_read read s) ?_
      rw [bind_of_ok (expired_apply _)]
      refine ReadEnd.of_still (still_tick _) ?_
      have hopen' : (Write.tick.apply ((Write.read read).apply s)).trace.unfinished =
        content.length := hopen
      generalize Write.tick.apply ((Write.read read).apply s) = u at hopen'
      split
      · exact still_event _ _
      · simp only [get_bind_apply]
        cases hlimit : chunkLimit env u.usage parentSize content.length chunk with
        | some event => exact still_event _ _
        | none =>
            refine ReadEnd.of_still (still_wrote chunk.length u) ?_
            have hwrote : ((Write.wrote chunk.length).apply u).trace.unfinished =
                (content ++ chunk).length := by
              rw [List.length_append, ← hopen']
              rfl
            have h := ih (content ++ chunk) ((Write.wrote chunk.length).apply u)
              (chunkLimit_eq_none hlimit) hwrote
            rwa [List.append_assoc] at h

/-- How `_materialize` ends: a file that is there holds the whole stream and fits the budget. -/
def MaterializeEnd (env : ExtractEnv) (scans : Scans ω) (content : Bytes) (s : ExtractState ω) :
    EStateM.Result Exc (ExtractState ω) (Option Bytes) → Prop
  | .ok none t => Still env scans s t
  | .ok (some read) t => Completed env scans s t ∧
      t.usage.childrenMaterialized = s.usage.childrenMaterialized ∧ read = content
  | .error exc t => Escaped env scans exc s t

/-- Another write may follow the exception. -/
lemma Escaped.then_unlinked {exc : Exc} {s t : ExtractState ω} (h : Escaped env scans exc s t) :
    Escaped env scans exc s (Write.unlinked.apply t) :=
  ⟨h.steps.tail (.write .unlinked trivial), h.pending, h.inside, h.failures⟩

lemma writeChild_end (stream : ByteStream) (parentSize number : ℕ) (s : ExtractState ω)
    (hopen : s.trace.unfinished = 0) :
    MaterializeEnd env scans stream.chunks.flatten s
      (writeChild env stream parentSize number s) := by
  have hread := @readChunks_end ω env scans parentSize stream.fault stream.chunks [] s
    ⟨Nat.zero_le _, fun h => absurd rfl h⟩ hopen
  rw [List.nil_append] at hread
  unfold writeChild
  cases hrun : readChunks env parentSize stream.fault stream.chunks [] s with
  | error exc t =>
      rw [hrun] at hread
      rw [bind_of_error hrun]
      exact hread
  | ok read t =>
      rw [hrun] at hread
      rw [bind_of_ok hrun]
      cases read with
      | none => exact hread.trans (still_unlinked t)
      | some read =>
          obtain ⟨hstill, hcontent, hin, hfile⟩ := hread
          cases hstore : env.storeFault number with
          | some exc => exact hstill.completed.escaped (escaped_decode rfl t)
          | none =>
              have hstored : Completed env scans t ((Write.stored read).apply t) :=
                completed_write rfl ⟨hin.single, hin.total, hfile⟩
              exact ⟨hstill.completed.trans hstored, hstill.materialized, hcontent⟩

lemma materialize_end (stream : ByteStream) (parentSize : ℕ) (s : ExtractState ω) :
    MaterializeEnd env scans stream.chunks.flatten s (materialize env stream parentSize s) := by
  simp only [materialize, get_bind_apply]
  by_cases htarget : s.usage.childrenMaterialized < s.files.length
  · simp only [htarget, if_true]
    exact escaped_decode rfl s
  · simp only [htarget, if_false]
    rw [decode, pure_bind_apply, perform, modify_bind_apply, tryCatch_apply]
    have hcreated := @still_created ω env scans s
    have hchild := @writeChild_end ω env scans stream parentSize s.usage.childrenMaterialized
      (Write.created.apply s) rfl
    cases hrun : writeChild env stream parentSize s.usage.childrenMaterialized
        (Write.created.apply s) with
    | error exc t =>
        rw [hrun] at hchild
        exact hcreated.completed.escaped (Escaped.then_unlinked hchild)
    | ok read t =>
        rw [hrun] at hchild
        cases read with
        | none => exact hcreated.trans hchild
        | some read =>
            exact ⟨hcreated.completed.trans hchild.1, hchild.2.1, hchild.2.2⟩

/-! ## A child -/

/-- The three writes that put a child into the graph. -/
def recorded (parent : InputArtifact) (member : Member) (depth : ℕ) (artifact : InputArtifact)
    (content : Bytes) (result : ScanJob) (s : ExtractState ω) : ExtractState ω :=
  (Write.deeper depth).apply <| (Write.related (relationshipOf parent artifact member depth)).apply
    ((Write.derived (derivedObject parent artifact member depth result) content).apply s)

lemma recordChild_apply (recurse : Recurse ω) (parent : InputArtifact) (member : Member)
    (depth : ℕ) (artifact : InputArtifact) (content : Bytes) (result : ScanJob)
    (s : ExtractState ω) :
    recordChild env recurse parent member depth artifact content result s =
      (if depth ≥ env.budget.maxRecursionDepth then do
        let kind ← decode .kind (kindOf env content)
        if kind.isSome then limit "RECURSION_LIMIT_REACHED"
      else recurse depth artifact content)
        (recorded parent member depth artifact content result s) := by
  simp only [recordChild, perform, modify_bind_apply, recorded]

section Recorded

variable {parent artifact : InputArtifact} {member : Member} {depth : ℕ} {content : Bytes}
  {result : ScanJob} {s : ExtractState ω}

lemma recorded_steps (h : 1 ≤ depth ∧ depth ≤ env.budget.maxRecursionDepth) :
    Steps env scans s (recorded parent member depth artifact content result s) :=
  ((Relation.ReflTransGen.single
    (.write (.derived (derivedObject parent artifact member depth result) content) h)).tail
    (.write (.related (relationshipOf parent artifact member depth)) trivial)).tail
    (.write (.deeper depth) trivial)

lemma recorded_completed (h : 1 ≤ depth ∧ depth ≤ env.budget.maxRecursionDepth)
    (hnoted : Noted env (recorded parent member depth artifact content result s)
      (depth, content)) :
    Completed env scans s (recorded parent member depth artifact content result s) :=
  ⟨recorded_steps h, rfl, ⟨[], by simp [recorded, Write.apply, Write.note], by simp⟩,
    ⟨[], by simp [recorded, Write.apply, Write.note], by simp, by simp⟩,
    ⟨[(depth, content)], rfl, by simpa using hnoted⟩⟩

end Recorded

lemma recordChild_runs {recurse : Recurse ω} (hrecurse : ∀ d a c, Runs env scans (recurse d a c))
    (parent : InputArtifact) (member : Member) {depth : ℕ} (artifact : InputArtifact)
    (content : Bytes) (result : ScanJob)
    (hdepth : 1 ≤ depth ∧ depth ≤ env.budget.maxRecursionDepth) :
    Runs env scans (recordChild env recurse parent member depth artifact content result) := by
  intro s
  rw [recordChild_apply]
  by_cases hlimit : depth ≥ env.budget.maxRecursionDepth
  · simp only [hlimit, if_true]
    cases hkind : kindOf env content with
    | error exc =>
        have hescaped := @escaped_decode ω env scans .kind rfl exc
          (recorded parent member depth artifact content result s)
        exact ⟨(recorded_steps hdepth).trans hescaped.steps, hescaped.pending, hescaped.inside,
          hescaped.failures⟩
    | ok kind =>
        cases kind with
        | none => exact recorded_completed hdepth fun _ => .inl hkind
        | some kind =>
            refine ⟨(recorded_steps hdepth).tail (.write (.event recursionEvent) trivial), rfl,
              ⟨[], by simp [recorded, Write.apply, Write.note], by simp⟩,
              ⟨[], by simp [recorded, Write.apply, Write.note], by simp, by simp⟩,
              ⟨[(depth, content)], rfl, ?_⟩⟩
            intro object hmem
            obtain rfl := List.mem_singleton.1 hmem
            exact fun _ => .inr (mem_addEvent _ _)
  · simp only [hlimit, if_false]
    have hcompleted : Completed env scans s
        (recorded parent member depth artifact content result s) :=
      recorded_completed hdepth fun h => absurd h hlimit
    have hrest := hrecurse depth artifact content
      (recorded parent member depth artifact content result s)
    cases hrun : recurse depth artifact content
        (recorded parent member depth artifact content result s) with
    | ok a t => exact hcompleted.trans (by simpa [hrun] using hrest)
    | error exc t => exact hcompleted.escaped (by simpa [hrun] using hrest)

/-- The scan of a child is one step. -/
lemma onScans_end {artifact : InputArtifact} {label : String} {content : Bytes}
    (s : ExtractState ω) :
    match onScans (scanChild scans artifact label (childScanners s.job) content) s with
    | .ok _ t => Completed env scans s t
    | .error exc t => Escaped env scans exc s t := by
  have hstep : Step env scans s { s with scans := afterScan scans s artifact label content } :=
    .scan artifact label content
  unfold afterScan final at hstep
  simp only [onScans, get_bind_apply]
  cases hscan : scanChild scans artifact label (childScanners s.job) content s.scans with
  | ok job scans' =>
      rw [hscan] at hstep
      exact ⟨.single hstep, rfl, ⟨[], by simp, by simp⟩, ⟨[], by simp, by simp, by simp⟩,
        ⟨[], by simp, by simp⟩⟩
  | error exc scans' =>
      rw [hscan] at hstep
      have hescaped := @escaped_decode ω env scans .scan rfl exc { s with scans := scans' }
      exact ⟨.head hstep hescaped.steps, hescaped.pending, hescaped.inside, hescaped.failures⟩

/-- A child has been started, and what follows has returned. -/
def Entered (env : ExtractEnv) (scans : Scans ω) (relation : Relation) (content : Bytes)
    (s t : ExtractState ω) : Prop :=
  Completed env scans ((Write.begun relation content).apply s) t

/-- The end of `_child` once the file is there. -/
lemma enterChild_end {recurse : Recurse ω} (hrecurse : ∀ d a c, Runs env scans (recurse d a c))
    (parent : InputArtifact) (member : Member) {depth : ℕ} (number : ℕ) (content : Bytes)
    (hdepth : 1 ≤ depth ∧ depth ≤ env.budget.maxRecursionDepth) (s : ExtractState ω) :
    match enterChild env scans recurse parent member depth number content s with
    | .ok _ t => Entered env scans member.relation content s t
    | .error exc t => Escaped env scans exc ((Write.begun member.relation content).apply s) t := by
  simp only [enterChild, get_bind_apply, perform, modify_bind_apply]
  generalize hbegun : (Write.begun member.relation content).apply s = u
  have hjob : childScanners s.job = childScanners u.job := by rw [← hbegun]; rfl
  unfold Entered
  rw [hbegun]
  cases hartifact : artifactOf env number content member.name with
  | error exc => exact escaped_decode rfl u
  | ok artifact =>
      rw [decode, pure_bind_apply, hjob]
      have hscan := @onScans_end ω env scans artifact s!"derived:{s.job.jobId}" content u
      cases hrun : onScans (scanChild scans artifact s!"derived:{s.job.jobId}"
          (childScanners u.job) content) u with
      | error exc t =>
          rw [hrun] at hscan
          rw [bind_of_error hrun]
          exact hscan
      | ok result t =>
          rw [hrun] at hscan
          rw [bind_of_ok hrun]
          have hcompleted : Completed env scans u t := hscan
          have hrest := recordChild_runs hrecurse parent member artifact content result hdepth t
          cases hrecord : recordChild env recurse parent member depth artifact content result t with
          | ok a v => exact hcompleted.trans (by simpa [hrecord] using hrest)
          | error exc v => exact hcompleted.escaped (by simpa [hrecord] using hrest)

/-- The end of `_child`: either no child was started, or one was and its subtree is done. -/
def ChildEnd (env : ExtractEnv) (scans : Scans ω) (member : Member) (s t : ExtractState ω) :
    Prop :=
  (Completed env scans s t ∧ t.usage.childrenMaterialized = s.usage.childrenMaterialized) ∨
    ∃ u, Completed env scans s u ∧
      u.usage.childrenMaterialized = s.usage.childrenMaterialized ∧
      Allowed env u (.begun member.relation member.stream.chunks.flatten) ∧
      Entered env scans member.relation member.stream.chunks.flatten u t

lemma escaped_begun {relation : Relation} {content : Bytes} {exc : Exc} {s t : ExtractState ω}
    (hallowed : Allowed env s (.begun relation content))
    (h : Escaped env scans exc ((Write.begun relation content).apply s) t) :
    Escaped env scans exc s t := by
  have hpending : s.trace.pending <:+ ((Write.begun relation content).apply s).trace.pending := by
    simp only [Write.apply, Write.note]
    split
    · exact List.suffix_cons _ _
    · exact List.suffix_rfl
  have hsame : ((Write.begun relation content).apply s).trace.failures = s.trace.failures ∧
      ((Write.begun relation content).apply s).trace.inside = s.trace.inside := by
    simp only [Write.apply, Write.note]
    split <;> exact ⟨rfl, rfl⟩
  exact ⟨.head (.write _ hallowed) h.steps, hpending.trans h.pending, hsame.2 ▸ h.inside,
    hsame.1 ▸ h.failures⟩

/-- The stream of a partition is not empty. -/
def Member.Proper (member : Member) : Prop :=
  member.relation = .partitionOf → member.stream.chunks.flatten ≠ []

lemma child_end {recurse : Recurse ω} (hrecurse : ∀ d a c, Runs env scans (recurse d a c))
    (parent : InputArtifact) {member : Member} (hproper : member.Proper) {parentDepth : ℕ}
    (parentSize : ℕ) (hdepth : parentDepth < env.budget.maxRecursionDepth) (s : ExtractState ω) :
    match child env scans recurse parent member parentDepth parentSize s with
    | .ok _ t => ChildEnd env scans member s t
    | .error exc t => Escaped env scans exc s t := by
  rcases Nat.lt_or_ge s.usage.childrenMaterialized env.budget.maxTotalChildren with hstart | hfull
  · simp only [child, bind_of_ok (canStartChild_of_lt hstart), if_true, get_bind_apply]
    have hmaterialize := @materialize_end ω env scans member.stream parentSize s
    cases hrun : materialize env member.stream parentSize s with
    | error exc t =>
        rw [hrun] at hmaterialize
        rw [bind_of_error hrun]
        exact hmaterialize
    | ok read t =>
        rw [hrun] at hmaterialize
        rw [bind_of_ok hrun]
        cases read with
        | none => exact .inl ⟨hmaterialize.completed, hmaterialize.materialized⟩
        | some content =>
            obtain ⟨hcompleted, hsame, rfl⟩ := hmaterialize
            have hallowed : Allowed env t
                (.begun member.relation member.stream.chunks.flatten) :=
              ⟨by rwa [← hsame] at hstart, hproper⟩
            have henter := enterChild_end hrecurse parent member s.usage.childrenMaterialized
              member.stream.chunks.flatten ⟨Nat.succ_pos parentDepth, hdepth⟩ t
            cases hrest : enterChild env scans recurse parent member (parentDepth + 1)
                s.usage.childrenMaterialized member.stream.chunks.flatten t with
            | ok a u =>
                rw [hrest] at henter
                dsimp only
                rw [hrest]
                exact .inr ⟨t, hcompleted, hsame, hallowed, henter⟩
            | error exc u =>
                rw [hrest] at henter
                dsimp only
                rw [hrest]
                exact hcompleted.escaped (escaped_begun hallowed henter)
  · simp only [child, bind_of_ok (canStartChild_of_ge hfull)]
    have hstill := @still_event ω env scans "TOTAL_CHILD_COUNT_LIMIT" s
    exact .inl ⟨hstill.completed, hstill.materialized⟩

/-- A child that is no partition leaves the open partitions as they were. -/
lemma ChildEnd.completed {member : Member} {s t : ExtractState ω}
    (h : ChildEnd env scans member s t) (hrelation : member.relation ≠ .partitionOf) :
    Completed env scans s t := by
  rcases h with ⟨hcompleted, -⟩ | ⟨u, hcompleted, -, hallowed, hentered⟩
  · exact hcompleted
  · have hbegun : Completed env scans u
        ((Write.begun member.relation member.stream.chunks.flatten).apply u) := by
      refine ⟨.single (.write _ hallowed), ?_, ⟨[], ?_, by simp⟩, ⟨[], ?_, by simp, by simp⟩,
        ⟨[], ?_, by simp⟩⟩ <;>
        simp [Write.apply, Write.note, hrelation]
    exact (hcompleted.trans hbegun).trans hentered

/-- What the handlers rely on in the calls of `_child`. -/
def Visits (env : ExtractEnv) (scans : Scans ω) (visit : Visit ω) : Prop :=
  ∀ member s, member.Proper → match visit member s with
    | .ok _ t => ChildEnd env scans member s t
    | .error exc t => Escaped env scans exc s t

lemma childOf_visits {recurse : Recurse ω} (hrecurse : ∀ d a c, Runs env scans (recurse d a c))
    {source : Source} (hdepth : source.depth < env.budget.maxRecursionDepth) :
    Visits env scans (childOf env scans recurse source) :=
  fun _ s hproper => child_end hrecurse source.parent hproper source.content.length hdepth s

lemma Visits.runs {visit : Visit ω} (h : Visits env scans visit) {member : Member}
    (hrelation : member.relation ≠ .partitionOf) : Runs env scans (visit member) := by
  intro s
  have hend := h member s fun hpartition => absurd hpartition hrelation
  cases hrun : visit member s with
  | ok a t =>
      rw [hrun] at hend
      exact ChildEnd.completed hend hrelation
  | error exc t =>
      rw [hrun] at hend
      exact hend

/-! ## The handlers -/

lemma limitChildren_runs (count : ℕ) : Runs env scans (limitChildren env count : Extract ω Unit) :=
  Ends.ite (fun _ => runs_limit _) fun _ => Ends.pure (composes _ _) _

lemma eachMember_runs {α : Type} {items : List α} {body : α → ℕ → Extract ω Unit}
    (h : ∀ item index, Runs env scans (body item index)) :
    Runs env scans (eachMember env items body) := by
  have hc := composes env scans
  refine Ends.bind hc (limitChildren_runs _) fun _ => Ends.forEach hc fun item _ => ?_
  refine Ends.bind hc (runs_perform rfl fun _ => trivial) fun _ => ?_
  refine Ends.bind hc canStartChild_runs fun start => Ends.ite (fun _ => ?_) fun _ => Ends.pure hc _
  exact Ends.bind hc (h item.1 item.2) fun _ => Ends.pure hc _

lemma takePartial_runs (partially : Option Partial) :
    Runs env scans (takePartial partially : Extract ω Unit) := by
  refine Ends.get_bind fun s => ?_
  cases partially with
  | none => exact Ends.pure (composes _ _) _
  | some state =>
      exact Ends.ite (fun _ => runs_perform rfl fun _ => trivial) fun _ =>
        Ends.pure (composes _ _) _

section Handlers

variable {visit : Visit ω} (hvisit : Visits env scans visit) {content : Bytes}

include hvisit

lemma processDocument_runs (document : ParsedDocument) :
    Runs env scans (processDocument env visit document) :=
  Ends.bind (composes _ _) (takePartial_runs _) fun _ =>
    eachMember_runs fun _ _ => hvisit.runs (by simp)

lemma zipMember_runs (info : ZipInfo) (index : ℕ) :
    Runs env scans (zipMember env visit content info index) := by
  have hc := composes env scans
  refine Ends.ite (fun _ => runs_skip _) fun _ => ?_
  refine Ends.ite (fun _ => runs_skip _) fun _ => ?_
  refine Ends.ite (fun _ => runs_skip _) fun _ => ?_
  refine Ends.ite (fun _ => runs_skip _) fun _ => ?_
  exact Ends.bind hc (runs_decode rfl _) fun stream => hvisit.runs (by simp)

lemma processZip_runs : Runs env scans (processZip env visit content) :=
  Ends.bind (composes _ _) (runs_decode rfl _) fun _ =>
    eachMember_runs fun info index => zipMember_runs hvisit info index

lemma tarMember_runs (info : TarInfo) (index : ℕ) :
    Runs env scans (tarMember env visit content info index) := by
  have hc := composes env scans
  refine Ends.ite (fun _ => runs_skip _) fun _ => ?_
  refine Ends.ite (fun _ => runs_skip _) fun _ => ?_
  refine Ends.ite (fun _ => runs_skip _) fun _ => ?_
  refine Ends.ite (fun _ => runs_skip _) fun _ => ?_
  refine Ends.bind hc (runs_decode rfl _) fun stream => ?_
  cases stream with
  | none => exact Ends.pure hc _
  | some stream => exact hvisit.runs (by simp)

lemma processTar_runs : Runs env scans (processTar env visit content) :=
  Ends.bind (composes _ _) (runs_decode rfl _) fun _ =>
    eachMember_runs fun info index => tarMember_runs hvisit info index

lemma processCompressed_runs (kind : Kind) :
    Runs env scans (processCompressed env visit kind content) := by
  have hc := composes env scans
  refine Ends.bind hc (runs_decode rfl _) fun stream => ?_
  exact Ends.bind hc (runs_perform rfl fun _ => trivial) fun _ =>
    hvisit.runs (by simp)

omit hvisit in
/-- The charge closes the partition that `_child` has opened. -/
lemma Entered.charged {view : Bytes} {s t : ExtractState ω}
    (hallowed : Allowed env s (.begun .partitionOf view))
    (h : Entered env scans .partitionOf view s t) :
    Completed env scans s ((Write.charged view.length).apply t) := by
  have hpending : t.trace.pending = view.length :: s.trace.pending := h.pending
  obtain ⟨caught, hcaught, hguarded, hreported⟩ := h.failures
  have hsteps : Steps env scans s ((Write.charged view.length).apply t) :=
    (Relation.ReflTransGen.head (.write _ hallowed) h.steps).tail
      (.write (.charged view.length) ⟨_, hpending⟩)
  refine ⟨hsteps, ?_, h.inside, ⟨caught, hcaught, hguarded, fun hne => ?_⟩, ?_⟩
  · simp [Write.apply, Write.note, hpending]
  · exact (hreported hne).mono (grows_apply _ _) (grows_apply _ _)
  · obtain ⟨found, hfound, hnoted⟩ := h.objects
    exact ⟨found, hfound, fun object hmem => (hnoted object hmem).mono (grows_apply _ _)⟩

omit hvisit in
lemma chargePartition_end {partition : Partition} {member : Member}
    (hlength : member.stream.chunks.flatten.length = partition.length)
    (hrelation : member.relation = .partitionOf) {s t : ExtractState ω}
    (h : ChildEnd env scans member s t) :
    ∃ u, chargePartition partition s.usage.childrenMaterialized t = .ok () u ∧
      Completed env scans s u := by
  simp only [chargePartition, get_bind_apply]
  rcases h with ⟨hcompleted, hsame⟩ | ⟨u, hcompleted, hsame, hallowed, hentered⟩
  · have hnot : ¬t.usage.childrenMaterialized > s.usage.childrenMaterialized := by omega
    simp only [hnot, if_false]
    exact ⟨t, rfl, hcompleted⟩
  · have hgrows := hentered.steps.grows.materialized
    have hbegun : ((Write.begun member.relation member.stream.chunks.flatten).apply
        u).usage.childrenMaterialized = u.usage.childrenMaterialized + 1 := rfl
    have hmore : t.usage.childrenMaterialized > s.usage.childrenMaterialized := by omega
    simp only [hmore, if_true]
    rw [hrelation] at hallowed hentered
    refine ⟨_, rfl, hcompleted.trans ?_⟩
    rw [← hlength]
    exact Entered.charged hallowed hentered

lemma partitionMember_runs {partition : Partition} (hpos : 0 < partition.length) :
    Runs env scans (partitionMember env visit content partition) := by
  have hc := composes env scans
  refine Ends.bind hc (runs_perform rfl fun _ => trivial) fun _ => ?_
  refine Ends.bind hc canStartChild_runs fun start => Ends.ite (fun _ => ?_) fun _ => Ends.pure hc _
  refine Ends.ite (fun _ => ?_) fun _ => ?_
  · exact Ends.bind hc (runs_limit _) fun _ => Ends.pure hc _
  refine Ends.get_bind fun r => Ends.ite (fun _ => ?_) fun _ => ?_
  · exact Ends.bind hc (runs_limit _) fun _ => Ends.pure hc _
  intro s
  cases hview : Partitions.rangeReader content partition.start partition.length with
  | error exc => exact escaped_decode rfl s
  | ok view =>
      rw [decode, pure_bind_apply, get_bind_apply]
      have hlength := Partitions.length_of_rangeReader hview
      generalize hmember : (⟨.ofBytes view, partitionName partition, partition.index,
        .partitionOf⟩ : Member) = member
      have hstream : member.stream.chunks.flatten.length = partition.length := by
        rw [← hmember, ← hlength]
        simp [ByteStream.ofBytes]
      have hproper : member.Proper := by
        intro _ hnil
        rw [hnil, List.length_nil] at hstream
        omega
      have hend := hvisit member s hproper
      cases hrun : visit member s with
      | error exc t =>
          rw [hrun] at hend
          rw [bind_of_error hrun]
          exact hend
      | ok a t =>
          rw [hrun] at hend
          rw [bind_of_ok hrun]
          have hrelation : member.relation = .partitionOf := by rw [← hmember]
          obtain ⟨u, hcharge, hcompleted⟩ := chargePartition_end hstream hrelation hend
          rw [bind_of_ok hcharge]
          exact hcompleted

omit hvisit in
lemma reportTable_runs (errors : List String) :
    Runs env scans (reportTable errors : Extract ω Unit) := by
  refine Ends.ite (fun _ => Ends.pure (composes _ _) _) fun _ => ?_
  exact Ends.bind (composes _ _) (runs_perform rfl fun _ => trivial) fun _ =>
    runs_perform rfl fun _ => trivial

end Handlers

/-! ## Handlers of exceptions -/

/-- The writes that a handler of an exception ends with. -/
lemma reported_error (s : ExtractState ω) (text : String) (value : Partial) :
    Reported s ((Write.completeness value).apply ((Write.errors [text]).apply s)) :=
  ⟨⟨value, rfl⟩, by simp [Write.apply, Write.change]⟩

lemma completed_error (s : ExtractState ω) (text : String) (value : Partial) :
    Completed env scans s ((Write.completeness value).apply ((Write.errors [text]).apply s)) := by
  have herrors : Completed env scans s ((Write.errors [text]).apply s) :=
    completed_write rfl trivial
  exact herrors.trans (completed_write rfl trivial)

lemma refuseDocument_end (exc : Exc) (s : ExtractState ω) :
    ∃ a t, refuseDocument exc s = .ok a t ∧ Completed env scans s t ∧ Reported s t :=
  ⟨none, _, rfl, completed_error s _ .error, reported_error s _ .error⟩

lemma refuseTable_end (exc : Exc) (s : ExtractState ω) :
    ∃ a t, refuseTable exc s = .ok a t ∧ Completed env scans s t ∧ Reported s t := by
  have hskip : Still env scans s _ := still_event "CORRUPT_PARTITION_TABLE" s
  exact ⟨none, _, rfl, hskip.completed.trans (completed_error _ _ .error),
    (reported_error _ _ .error).mono (grows_apply _ _) (.refl _)⟩

lemma refuseImage_end (exc : Exc) (s : ExtractState ω) :
    ∃ a t, refuseImage exc s = .ok a t ∧ Completed env scans s t ∧ Reported s t := by
  have hskip : Still env scans s _ := still_event "CORRUPT_FILESYSTEM" s
  exact ⟨none, _, rfl, hskip.completed.trans (completed_error _ _ .error),
    (reported_error _ _ .error).mono (grows_apply _ _) (.refl _)⟩

/-- A table that reaches the loop over its partitions has been parsed. -/
lemma parse_of_guarded {r : Except Exc (Option PartitionTable)} {table : PartitionTable}
    (h : ∃ s t : ExtractState ω, guarded .partitionTable r refuseTable s = .ok (some table) t) :
    r = .ok (some table) := by
  obtain ⟨s, t, h⟩ := h
  cases r with
  | ok found =>
      obtain ⟨rfl, -⟩ := EStateM.Result.ok.inj h
      rfl
  | error exc =>
      rw [guarded_error] at h
      split at h
      · cases h
      · cases h

lemma skipAs_runs (event : String) (value : Partial) :
    Runs env scans (skipAs event value : Extract ω Unit) :=
  Ends.bind (composes _ _) (runs_skip _) fun _ => runs_perform rfl fun _ => trivial

section Containers

variable {visit : Visit ω} (hvisit : Visits env scans visit) {content : Bytes}

include hvisit

lemma processPartitionedDisk_runs :
    Runs env scans (processPartitionedDisk env visit content) := by
  have hc := composes env scans
  refine Ends.bind_result hc (runs_guarded refuseTable_end) fun table hresult => ?_
  cases table with
  | none => exact Ends.pure hc _
  | some table =>
      have hparse := parse_of_guarded hresult
      exact Ends.bind hc (reportTable_runs _) fun _ => Ends.forEach hc fun partition hmem =>
        partitionMember_runs hvisit (Partitions.parse_length_pos hparse hmem)

lemma diskEntry_runs (entry : DiskEntry) :
    Runs env scans (diskEntry env visit entry) :=
  Ends.ite (fun _ => runs_skip _) fun _ => hvisit.runs (by simp)

lemma processDiskImage_runs : Runs env scans (processDiskImage env visit content) := by
  have hc := composes env scans
  refine Ends.bind hc (runs_guarded refuseImage_end) fun image => ?_
  cases image with
  | none => exact Ends.pure hc _
  | some image => exact eachMember_runs fun entry _ => diskEntry_runs hvisit entry

omit hvisit in
lemma extractExternal_runs (kind : Kind) (name : PyStr) :
    Runs env scans (extractExternal env kind content name : Extract ω (Option ByteStream)) := by
  have hc := composes env scans
  refine Ends.ite (fun _ => runs_decode rfl _) fun _ => ?_
  exact Ends.bind hc (runs_decode rfl _) fun _ => Ends.pure hc _

lemma externalMember_runs (kind : Kind) (row : ExternalMember) (index : ℕ) :
    Runs env scans (externalMember env visit kind content row index) := by
  have hc := composes env scans
  have hrelation : externalRelation kind ≠ .partitionOf := by
    unfold externalRelation
    split <;> simp
  refine Ends.ite (fun _ => runs_skip _) fun _ => Ends.ite (fun _ => Ends.pure hc _) fun _ => ?_
  refine Ends.bind hc (runs_decode rfl _) fun _ => Ends.ite (fun _ => runs_skip _) fun _ => ?_
  refine Ends.bind hc (extractExternal_runs kind row.name) fun stream => ?_
  cases stream with
  | none => exact runs_skip _
  | some stream => exact hvisit.runs hrelation

lemma processExternalArchive_runs (kind : Kind) :
    Runs env scans (processExternalArchive env visit kind content) := by
  unfold processExternalArchive
  split
  · exact skipAs_runs _ _
  · exact skipAs_runs _ _
  · exact skipAs_runs _ _
  · exact skipAs_runs _ _
  · exact Ends.bind (composes _ _) (runs_decode rfl _) fun _ =>
      eachMember_runs fun row index => externalMember_runs hvisit kind row index

/-- One case for each kind of container. -/
lemma processContainer_runs (kind : Kind) :
    Runs env scans (processContainer env visit content kind) := by
  cases kind with
  | corruptZip => exact skipAs_runs _ _
  | zip => exact processZip_runs hvisit
  | partitionedDisk => exact processPartitionedDisk_runs hvisit
  | fat | amigaAdf => exact processDiskImage_runs hvisit
  | tar => exact processTar_runs hvisit
  | gzip | bzip2 | xz => exact processCompressed_runs hvisit _
  | lha | iso9660 | sevenZip | cab | arj =>
      exact processExternalArchive_runs hvisit _

end Containers

/-! ## The recursion -/

lemma objectBody_runs {recurse : Recurse ω} (hrecurse : ∀ d a c, Runs env scans (recurse d a c))
    (source : Source) : Runs env scans (objectBody env scans recurse source) := by
  have hc := composes env scans
  refine Ends.bind hc expired_runs fun _ => Ends.ite (fun _ => runs_limit _) fun _ => ?_
  refine Ends.ite (fun _ => Ends.pure hc _) fun hdepth => ?_
  have hdepth := Nat.lt_of_not_le hdepth
  refine Ends.bind hc (runs_guarded refuseDocument_end) fun document => ?_
  cases document with
  | some document => exact processDocument_runs (childOf_visits hrecurse hdepth) document
  | none =>
      refine Ends.bind hc (runs_decode rfl _) fun kind => ?_
      cases kind with
      | none => exact Ends.pure hc _
      | some kind => exact processContainer_runs (childOf_visits hrecurse hdepth) kind

/-- By induction on the fuel: whatever is nested, the recursion is made of steps. -/
theorem processObject_runs (fuel depth : ℕ) (parent : InputArtifact) (content : Bytes) :
    Runs env scans (processObject env scans fuel depth parent content) := by
  induction fuel generalizing depth parent content with
  | zero => exact (runs_decode rfl _ : Runs env scans (decode .stack (.error recursionError)))
  | succ fuel ih => exact objectBody_runs ih ⟨parent, depth, content⟩

/-! ## The entry point -/

lemma conclude_runs : Runs env scans (conclude : Extract ω Unit) :=
  Ends.get_bind fun _ => Ends.ite (fun _ => runs_perform rfl fun _ => trivial) fun _ =>
    Ends.pure (composes _ _) _

lemma processBody_runs (source : Bytes) : Runs env scans (processBody env scans source) :=
  Ends.get_bind fun _ => Ends.bind (composes _ _) (processObject_runs _ _ _ _) fun _ =>
    conclude_runs

/-- The state after the `finally` clause. -/
def removed (s : ExtractState ω) : ExtractState ω := { s with files := [], derivedRoot := false }

/-- The state after the `except` clause. -/
def excepted (exc : Exc) (s : ExtractState ω) : ExtractState ω :=
  (Write.completeness .error).apply
    ((Write.errors [s!"container: {exc.name}: {exc.text}"]).apply s)

lemma excepted_steps (exc : Exc) (s : ExtractState ω) : Steps env scans s (excepted exc s) :=
  (completed_error s _ .error).steps

lemma process_of_ok {source : Bytes} {s t : ExtractState ω}
    (h : processBody env scans source (begin source s) = .ok () t) :
    process env scans source s = .ok () (removed t) := by
  simp only [process, modify_bind_apply, tryFinally_apply, tryCatch_apply, h]
  rfl

lemma process_of_error {source : Bytes} {s t : ExtractState ω} {exc : Exc}
    (h : processBody env scans source (begin source s) = .error exc t) :
    process env scans source s =
      if exc.family ∈ processGuards then .ok () (removed (excepted exc t))
      else .error exc (removed t) := by
  simp only [process, modify_bind_apply, tryFinally_apply, tryCatch_apply, h, recoverProcess]
  by_cases hguard : exc.family ∈ processGuards
  · simp only [hguard, if_true]
    rfl
  · simp only [hguard, if_false]
    rfl

lemma excepted_reported (exc : Exc) (s : ExtractState ω) : Reported s (excepted exc s) :=
  reported_error s _ .error

/-- Between the first statement and the `finally` clause there are steps only. -/
theorem process_steps (env : ExtractEnv) (scans : Scans ω) (source : Bytes) (s : ExtractState ω) :
    ∃ t, Steps env scans (begin source s) t ∧ final (process env scans source) s = removed t := by
  have hruns := @processBody_runs _ env scans source (begin source s)
  cases hbody : processBody env scans source (begin source s) with
  | ok a t =>
      rw [hbody] at hruns
      exact ⟨t, hruns.steps, final_of_ok (process_of_ok hbody)⟩
  | error exc t =>
      rw [hbody] at hruns
      have hprocess := process_of_error hbody
      split at hprocess
      · exact ⟨excepted exc t, hruns.steps.trans (excepted_steps exc t), final_of_ok hprocess⟩
      · exact ⟨t, hruns.steps, final_of_error hprocess⟩

end ContainerAnalyzer

end AVBox
