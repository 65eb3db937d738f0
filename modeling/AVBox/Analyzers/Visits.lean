import AVBox.Analyzers.Handlers
import AVBox.Lib.Transitions

/-!
# Visits

A handler visits some of the members of its object, in order and between minor writes, however it
ends (`objectBody_takes`).  `processObject_moves` goes from the visits to whole extractions.
-/

namespace AVBox

open Program Transitions

namespace ContainerAnalyzer

variable {ω : Type}

/-! ## Visits -/

/-- A part of a handler. -/
inductive Action
  | write (write : Write)
  | visit (member : Member)

/-- What a part of a handler does. -/
def Handles (visit : Visit ω) (s : ExtractState ω) (action : Action) (t : ExtractState ω) : Prop :=
  match action with
  | .write write => Write.minor write = true ∧ t = write.apply s
  | .visit member => t = final (visit member) s

def Action.member? : Action → Option Member
  | .write _ => none
  | .visit member => some member

/-- The members visited in a run. -/
def visited (trace : List (ExtractState ω × Action)) : List Member :=
  trace.filterMap fun taken => taken.2.member?

lemma visited_append (trace trace' : List (ExtractState ω × Action)) :
    visited (trace ++ trace') = visited trace ++ visited trace' := List.filterMap_append

/-- A run of `x` makes minor writes and visits some of the members, in order. -/
def Takes {α : Type} (visit : Visit ω) (members : List Member) (x : Extract ω α) : Prop :=
  ∀ s, ∃ trace, Run (Handles visit) s trace (final x s) ∧ (visited trace).Sublist members

variable {env : ExtractEnv} {visit : Visit ω} {members members' : List Member} {α β : Type}

namespace Takes

lemma of_final_eq {x : Extract ω α} (h : ∀ s, final x s = s) : Takes visit members x :=
  fun s => ⟨[], (h s).symm ▸ .nil, List.nil_sublist _⟩

lemma pure (a : α) : Takes visit members (Pure.pure a : Extract ω α) := of_final_eq fun _ => rfl

lemma throw (exc : Exc) : Takes visit members (throw exc : Extract ω α) := of_final_eq fun _ => rfl

lemma perform {write : Write} (h : Write.minor write = true) :
    Takes visit members (perform write : Extract ω Unit) :=
  fun s => ⟨[(s, .write write)], .snoc .nil ⟨h, rfl⟩, List.nil_sublist _⟩

lemma visits {member : Member} (h : member ∈ members) : Takes visit members (visit member) :=
  fun s => ⟨[(s, .visit member)], .snoc .nil rfl, List.singleton_sublist.2 h⟩

/-- The second program is only asked about the values the first one can return. -/
lemma bind_result {x : Extract ω α} {f : α → Extract ω β} (hx : Takes visit members x)
    (hf : ∀ a, (∃ s t, x s = .ok a t) → Takes visit members' (f a)) :
    Takes visit (members ++ members') (x >>= f) := by
  intro s
  obtain ⟨trace, hrun, hvisited⟩ := hx s
  cases hcase : x s with
  | error exc t =>
      rw [final_bind_of_error hcase, ← final_of_error hcase]
      exact ⟨trace, hrun, hvisited.trans (List.sublist_append_left _ _)⟩
  | ok a t =>
      obtain ⟨trace', hrun', hvisited'⟩ := hf a ⟨s, t, hcase⟩ t
      rw [final_of_ok hcase] at hrun
      rw [final_bind_of_ok hcase]
      refine ⟨trace ++ trace', hrun.trans hrun', ?_⟩
      rw [visited_append]
      exact hvisited.append hvisited'

lemma get_bind {f : ExtractState ω → Extract ω β} (h : ∀ s, Takes visit members (f s)) :
    Takes visit members (get >>= f) := fun s => h s s

lemma rules : ProgramRules (Takes visit) where
  pure := pure
  throw := throw
  perform hplain := perform (Write.minor_of_plain hplain)
  get_bind := get_bind
  bind_result := bind_result

/-- A first program that visits nothing. -/
lemma bind_nil {x : Extract ω α} {f : α → Extract ω β} (hx : Takes visit [] x)
    (hf : ∀ a, Takes visit members (f a)) : Takes visit members (x >>= f) := rules.bind_nil hx hf

lemma ite {c : Prop} [Decidable c] {x y : Extract ω α} (hx : c → Takes visit members x)
    (hy : ¬c → Takes visit members y) : Takes visit members (if c then x else y) := by
  split
  · exact hx ‹_›
  · exact hy ‹_›

lemma limit (event : String) : Takes visit members (limit event : Extract ω Unit) := perform rfl

lemma decode (site : DecodeSite) (r : Except Exc α) :
    Takes visit members (decode site r : Extract ω α) := rules.decode site r

end Takes

/-! ## The handlers -/

lemma handlerRules_takes (env : ExtractEnv) (visit : Visit ω) :
    HandlerRules env visit (Takes visit) where
  toProgramRules := Takes.rules
  visits hlisted _ := .visits hlisted
  partition _ _ := Takes.rules.partitionMember _ _
    (fun _ _ => .visits (List.mem_singleton_self _)) (.perform rfl)

section Handlers

variable {content : Bytes}

lemma memberPass_of_ge (body : Extract ω Unit) {s : ExtractState ω}
    (h : env.budget.maxTotalChildren ≤ s.usage.childrenMaterialized) :
    memberPass env body s = .ok .stop
      ((Write.event "TOTAL_CHILD_COUNT_LIMIT").apply (Write.discovered.apply s)) := by
  rw [memberPass, AVBox.perform, modify_bind_apply,
    bind_of_ok (canStartChild_of_ge (s := Write.discovered.apply s) h)]
  rfl

lemma memberPass_of_lt (body : Extract ω Unit) {s : ExtractState ω}
    (h : s.usage.childrenMaterialized < env.budget.maxTotalChildren) :
    memberPass env body s =
      (body >>= fun _ => pure Flow.next) (Write.discovered.apply s) := by
  rw [memberPass, AVBox.perform, modify_bind_apply,
    bind_of_ok (canStartChild_of_lt (s := Write.discovered.apply s) h)]
  rfl

/-- How a pass ends that no exception ends. -/
lemma memberPass_eq_ok {body : Extract ω Unit} {flow : Flow} {s t : ExtractState ω}
    (h : memberPass env body s = .ok flow t) :
    flow = .stop ∧ env.budget.maxTotalChildren ≤ s.usage.childrenMaterialized ∧
        t = (Write.event "TOTAL_CHILD_COUNT_LIMIT").apply (Write.discovered.apply s) ∨
      flow = .next ∧ s.usage.childrenMaterialized < env.budget.maxTotalChildren ∧
        body (Write.discovered.apply s) = .ok () t := by
  by_cases htotal : env.budget.maxTotalChildren ≤ s.usage.childrenMaterialized
  · rw [memberPass_of_ge body htotal] at h
    obtain ⟨rfl, rfl⟩ := EStateM.Result.ok.inj h
    exact .inl ⟨rfl, htotal, rfl⟩
  · have hlt := Nat.lt_of_not_le htotal
    rw [memberPass_of_lt body hlt] at h
    obtain ⟨⟨⟩, u, hbody, hreturn⟩ := bind_eq_ok.1 h
    obtain ⟨rfl, rfl⟩ := EStateM.Result.ok.inj hreturn
    exact .inr ⟨rfl, hlt, hbody⟩

end Handlers

/-- An object visits its members. -/
theorem objectBody_takes (env : ExtractEnv) (scans : Scans ω) (recurse : Recurse ω)
    (source : Source) :
    Takes (childOf env scans recurse source) (objectMembers env source.content)
      (objectBody env scans recurse source) := (handlerRules_takes env _).objectBody

/-! ## What a handler preserves -/

/-- What the minor writes and the visits respect, a handler respects. -/
lemma run_respects {R : ExtractState ω → ExtractState ω → Prop} (hR : Respected R)
    {s t : ExtractState ω} {trace : List (ExtractState ω × Action)}
    (hrun : Run (Handles visit) s trace t)
    (hvisit : ∀ member ∈ visited trace, Moves R (visit member)) : R s t := by
  induction hrun with
  | nil => exact hR.refl s
  | @snoc trace u v action run step ih =>
      rw [visited_append] at hvisit
      obtain ⟨hbefore, hlast⟩ := List.forall_mem_append.1 hvisit
      refine hR.trans _ _ _ (ih hbefore) ?_
      cases action with
      | write write =>
          obtain ⟨hminor, rfl⟩ := step
          exact hR.minor write hminor u
      | visit member =>
          obtain rfl : v = final (visit member) u := step
          exact hlast member (List.mem_singleton_self member) u

lemma carries_of_ok {R : ExtractState ω → ExtractState ω → Prop} {x : Extract ω α}
    (h : ∀ s a t, x s = .ok a t → R s t) : Carries R x := by
  intro s
  cases hrun : x s with
  | ok a t => exact h s a t hrun
  | error exc t => trivial

lemma Takes.moves {R : ExtractState ω → ExtractState ω → Prop} (hR : Respected R)
    {x : Extract ω α} (h : Takes visit members x)
    (hvisit : ∀ member ∈ members, Moves R (visit member)) : Moves R x := by
  intro s
  obtain ⟨trace, hrun, hvisited⟩ := h s
  exact run_respects hR hrun fun member hmember => hvisit member (hvisited.subset hmember)

/-! ## A child -/

section Child

/-- What the plain writes and those to a file respect, `_materialize` respects. -/
lemma moves_files {R : ExtractState ω → ExtractState ω → Prop} (hrefl : ∀ s, R s s)
    (htrans : ∀ s t u, R s t → R t u → R s u)
    (hwrite : ∀ write, Write.plain write = true ∨ Write.filing write = true →
      ∀ s : ExtractState ω, R s (write.apply s)) :
    FileRules fun _ x => Moves R x where
  pure := Moves.pure hrefl
  throw := Moves.throw hrefl
  perform hplain := Moves.modify (hwrite _ (.inl hplain))
  get_bind h := fun s => h s s
  bind_result {_ _ _ _ x f} hx hf := fun s => by
    cases hrun : x s with
    | ok a t =>
        rw [final_bind_of_ok hrun]
        exact htrans _ _ _ (final_of_ok hrun ▸ hx s) (hf a ⟨s, t, hrun⟩ t)
    | error exc t =>
        rw [final_bind_of_error hrun, ← final_of_error hrun]
        exact hx s
  filing hfiling := Moves.modify (hwrite _ (.inr hfiling))
  unlink hx := Moves.tryCatch htrans hx fun _ => hwrite .unlinked (.inr rfl)

/-- Parts of `_child` that touch neither files nor the graph. -/
inductive Calm : ExtractState ω → ExtractState ω → Prop
  | write {s : ExtractState ω} (write : Write) (plain : Write.plain write = true) :
      Calm s (write.apply s)
  | scan {s : ExtractState ω} (scans : ω) : Calm s { s with scans := scans }

abbrev Calms : ExtractState ω → ExtractState ω → Prop := Relation.ReflTransGen Calm

/-- The writes that put nothing into the graph. -/
def Write.outside : Write → Bool
  | .derived _ _ | .related _ | .deeper _ => false
  | _ => true

/-- What puts nothing into the graph: such a write, or a call of the services. -/
inductive Aside : ExtractState ω → ExtractState ω → Prop
  | write {s : ExtractState ω} (write : Write) (outside : Write.outside write = true) :
      Aside s (write.apply s)
  | scan {s : ExtractState ω} (scans : ω) : Aside s { s with scans := scans }

abbrev Asides : ExtractState ω → ExtractState ω → Prop := Relation.ReflTransGen Aside

/-- The graph has not changed. -/
def SameGraph (s t : ExtractState ω) : Prop :=
  t.trace.objects = s.trace.objects ∧ t.job.derivedObjects = s.job.derivedObjects ∧
    t.job.relationships = s.job.relationships

lemma sameGraph_apply {write : Write} (h : Write.outside write = true) (s : ExtractState ω) :
    SameGraph s (write.apply s) := by
  cases write with
  | derived | related | deeper => cases h
  | begun relation content =>
      refine ⟨?_, rfl, rfl⟩
      simp only [Write.apply, Write.note]
      split <;> rfl
  | _ => exact ⟨rfl, rfl, rfl⟩

lemma Asides.sameGraph {s t : ExtractState ω} (h : Asides s t) : SameGraph s t := by
  induction h with
  | refl => exact ⟨rfl, rfl, rfl⟩
  | tail _ step ih =>
      obtain ⟨hobjects, hderived, hrelated⟩ := ih
      cases step with
      | write write outside =>
          obtain ⟨hobjects', hderived', hrelated'⟩ := sameGraph_apply outside _
          exact ⟨hobjects'.trans hobjects, hderived'.trans hderived, hrelated'.trans hrelated⟩
      | scan scans => exact ⟨hobjects, hderived, hrelated⟩

lemma asides_respected : Respected (Asides (ω := ω)) where
  refl _ := .refl
  trans _ _ _ := .trans
  minor write hminor s := by
    refine .single (.write write ?_)
    cases write <;> first | rfl | cases hminor

lemma asides_files : FileRules fun _ x => Moves (Asides (ω := ω)) x := by
  refine moves_files asides_respected.refl asides_respected.trans fun write h s => ?_
  refine .single (.write write ?_)
  cases write <;> first | rfl | simp [Write.plain, Write.filing] at h

lemma Calms.asides {s t : ExtractState ω} (h : Calms s t) : Asides s t := by
  induction h with
  | refl => exact .refl
  | tail _ step ih =>
      refine ih.tail ?_
      cases step with
      | write write plain =>
          refine .write write ?_
          cases write <;> first | rfl | cases plain
      | scan scans => exact .scan scans

lemma Takes.asides {x : Extract ω α} (h : Takes (fun _ => Pure.pure ()) [] x)
    (s : ExtractState ω) : Asides s (final x s) :=
  h.moves asides_respected (fun _ hmember => absurd hmember List.not_mem_nil) s

/-- The end of `_child`, once the child has joined the graph. -/
def below (env : ExtractEnv) (recurse : Recurse ω) (depth : ℕ) (artifact : InputArtifact)
    (content : Bytes) : Extract ω Unit :=
  if depth ≥ env.budget.maxRecursionDepth then do
    let kind ← decode .kind (kindOf env content)
    if kind.isSome then limit "RECURSION_LIMIT_REACHED"
  else recurse depth artifact content

/-- The checks of the limits let a child through. -/
def Admits (env : ExtractEnv) (parentSize : ℕ) (stream : ByteStream) (s : ExtractState ω) : Prop :=
  s.usage.childrenMaterialized < env.budget.maxTotalChildren ∧
    ∃ content t, materialize env stream parentSize s = .ok (some content) t

/-- The state in which `_child` has a file, or goes no further. -/
def Before (env : ExtractEnv) (source : Source) (member : Member) (s t : ExtractState ω) : Prop :=
  t = (Write.event "TOTAL_CHILD_COUNT_LIMIT").apply s ∨
    t = final (materialize env member.stream source.content.length) s

lemma Before.asides {source : Source} {member : Member} {s t : ExtractState ω}
    (h : Before env source member s t) : Asides s t := by
  rcases h with rfl | rfl
  · exact .single (.write _ rfl)
  · exact asides_files.materialize _ _ s

/-- A call of `_child`, however it ends: without a file, before the child joins the graph, or as
what follows. -/
inductive ChildRun (env : ExtractEnv) (recurse : Recurse ω) (source : Source) (member : Member)
    (s : ExtractState ω) (r : EStateM.Result Exc (ExtractState ω) Unit) : Prop
  | aside {t : ExtractState ω} (before : Before env source member s t)
      (ends : r = .ok () t ∧ ¬Admits env source.content.length member.stream s ∨
        ∃ exc, r = .error exc t)
  | failed {u t : ExtractState ω} (before : Before env source member s u)
      (after : Calms ((Write.begun member.relation member.content).apply u) t)
      (ends : ∃ exc, r = .error exc t)
  | entered {u v : ExtractState ω} (artifact : InputArtifact) (result : ScanJob)
      (before : Before env source member s u)
      (after : Calms ((Write.begun member.relation member.content).apply u) v)
      (named : ∃ number, artifactOf env number member.content member.name = .ok artifact)
      (ends : r = below env recurse (source.depth + 1) artifact member.content
        (recorded source.parent member (source.depth + 1) artifact member.content result v))

lemma onScans_calms {γ : Type} {x : EStateM Exc ω γ} (s : ExtractState ω) :
    Calms s (final (onScans x) s) := by
  simp only [final, onScans, get_bind_apply]
  cases x s.scans with
  | ok a scans => exact .single (.scan scans)
  | error exc scans =>
      exact (Relation.ReflTransGen.single (.scan scans)).tail (.write (.failed .scan exc) rfl)

lemma enterChild_split {scans : Scans ω} {recurse : Recurse ω} {source : Source} {member : Member}
    {number : ℕ} {s u : ExtractState ω} (before : Before env source member s u) :
    ChildRun env recurse source member s
      (enterChild env scans recurse source.parent member (source.depth + 1) number member.content
        u) := by
  unfold enterChild
  simp only [perform, get_bind_apply, modify_bind_apply]
  cases hartifact : artifactOf env number member.content member.name with
  | error exc => exact .failed before (.single (.write (.failed .artifact exc) rfl)) ⟨exc, rfl⟩
  | ok artifact =>
      rw [decode, pure_bind_apply]
      have hcalms := onScans_calms (x := scanChild scans artifact s!"derived:{u.job.jobId}"
        (childScanners u.job) member.content)
        ((Write.begun member.relation member.content).apply u)
      cases hscan : onScans (scanChild scans artifact s!"derived:{u.job.jobId}"
          (childScanners u.job) member.content)
          ((Write.begun member.relation member.content).apply u) with
      | error exc t =>
          rw [final_of_error hscan] at hcalms
          rw [bind_of_error hscan]
          exact .failed before hcalms ⟨exc, rfl⟩
      | ok result t =>
          rw [final_of_ok hscan] at hcalms
          rw [bind_of_ok hscan, recordChild_apply]
          exact .entered artifact result before hcalms ⟨number, hartifact⟩ rfl

/-- The start of a child is aside of the graph. -/
lemma Before.begun {source : Source} {member : Member} {s u t : ExtractState ω}
    (h : Before env source member s u)
    (h' : Calms ((Write.begun member.relation member.content).apply u) t) : Asides s t :=
  (h.asides.tail (.write _ rfl)).trans h'.asides

/-- However `_child` ends, the state it leaves. -/
lemma ChildRun.final_cases {recurse : Recurse ω} {source : Source} {member : Member}
    {x : Extract ω Unit} {s : ExtractState ω} (h : ChildRun env recurse source member s (x s)) :
    (Asides s (final x s) ∧
        (Returns x s → ¬Admits env source.content.length member.stream s)) ∨
      ∃ artifact content result u, Asides s u ∧ content = member.stream.chunks.flatten ∧
        final x s = final (below env recurse (source.depth + 1) artifact content)
          (recorded source.parent member (source.depth + 1) artifact content result u) := by
  generalize hend : x s = r at h
  cases h with
  | @aside t before ends =>
      left
      rcases ends with ⟨rfl, hlimit⟩ | ⟨exc, rfl⟩
      · rw [final_of_ok hend]
        exact ⟨before.asides, fun _ => hlimit⟩
      · rw [final_of_error hend]
        exact ⟨before.asides, fun hreturns => absurd hreturns (not_returns_iff.2 ⟨exc, t, hend⟩)⟩
  | @failed u t before after ends =>
      obtain ⟨exc, rfl⟩ := ends
      rw [final_of_error hend]
      exact .inl ⟨before.begun after,
        fun hreturns => absurd hreturns (not_returns_iff.2 ⟨exc, t, hend⟩)⟩
  | entered artifact result before after named ends =>
      refine .inr ⟨artifact, member.content, result, _, before.begun after, rfl, ?_⟩
      rw [final, hend, ends, ← final]

/-- What happens in a call of `_child`. -/
lemma childOf_split (env : ExtractEnv) (scans : Scans ω) (recurse : Recurse ω) (source : Source)
    (member : Member) (s : ExtractState ω) :
    ChildRun env recurse source member s (childOf env scans recurse source member s) := by
  unfold childOf child
  by_cases htotal : env.budget.maxTotalChildren ≤ s.usage.childrenMaterialized
  · rw [bind_of_ok (canStartChild_of_ge htotal)]
    exact .aside (.inl rfl) (.inl ⟨rfl, fun h => Nat.not_lt.2 htotal h.1⟩)
  · rw [bind_of_ok (canStartChild_of_lt (Nat.lt_of_not_le htotal)), if_pos rfl, get_bind_apply]
    have hend := @materialize_end ω env scans member.stream source.content.length s
    cases hread : materialize env member.stream source.content.length s with
    | error exc t =>
        rw [bind_of_error hread]
        exact .aside (.inr (final_of_error hread).symm) (.inr ⟨exc, rfl⟩)
    | ok read t =>
        have hbefore : Before env source member s t := .inr (final_of_ok hread).symm
        rw [hread] at hend
        rw [bind_of_ok hread]
        cases read with
        | none =>
            refine .aside hbefore (.inl ⟨rfl, fun h => ?_⟩)
            obtain ⟨content, u, hcontent⟩ := h.2
            rw [hread] at hcontent
            cases hcontent
        | some content =>
            obtain rfl : content = member.content := hend.2.2
            exact enterChild_split hbefore

end Child

/-! ## What holds of the objects of the graph -/

section Objects

variable {R : ExtractState ω → ExtractState ω → Prop} {P : ExtractState ω → ℕ × Bytes → Prop}

/-- What every write keeps, and a property of objects that is kept with it. -/
structure Persists (R : ExtractState ω → ExtractState ω → Prop)
    (P : ExtractState ω → ℕ × Bytes → Prop) : Prop where
  refl : ∀ s, R s s
  trans : ∀ s t u, R s t → R t u → R s u
  write : ∀ s write, R s (Write.apply s write)
  scan : ∀ s scans, R s { s with scans := scans }
  along : ∀ s t object, R s t → P s object → P t object

/-- A part of an extraction after which the objects it has added have a property. -/
structure Settles (R : ExtractState ω → ExtractState ω → Prop)
    (P : ExtractState ω → ℕ × Bytes → Prop) (s t : ExtractState ω) : Prop where
  grows : R s t
  objects : ∃ found, t.trace.objects = s.trace.objects ++ found ∧ ∀ object ∈ found, P t object

lemma Settles.of_objects {s t : ExtractState ω} (h : R s t)
    (hobjects : t.trace.objects = s.trace.objects) : Settles R P s t :=
  ⟨h, [], hobjects.trans (List.append_nil _).symm, fun _ hmem => absurd hmem List.not_mem_nil⟩

lemma objects_apply_of_minor {write : Write} (h : Write.minor write = true) (s : ExtractState ω) :
    (write.apply s).trace.objects = s.trace.objects := by
  cases write with
  | begun | derived | related | deeper => cases h
  | _ => rfl

lemma settles_respected (hP : Persists R P) : Respected (Settles R P) where
  refl s := .of_objects (hP.refl s) rfl
  trans s t u h h' := by
    obtain ⟨found, hfound, hsettled⟩ := h.objects
    obtain ⟨found', hfound', hsettled'⟩ := h'.objects
    refine ⟨hP.trans _ _ _ h.grows h'.grows, found ++ found', ?_, List.forall_mem_append.2
      ⟨fun object hobject => hP.along _ _ _ h'.grows (hsettled object hobject), hsettled'⟩⟩
    rw [hfound', hfound, List.append_assoc]
  minor write hminor s := .of_objects (hP.write s write) (objects_apply_of_minor hminor s)

lemma Persists.asides (hP : Persists R P) {s t : ExtractState ω} (h : Asides s t) : R s t := by
  induction h with
  | refl => exact hP.refl s
  | tail _ step ih =>
      refine hP.trans _ _ _ ih ?_
      cases step with
      | write write _ => exact hP.write _ write
      | scan scans => exact hP.scan _ scans

lemma Settles.of_asides (hP : Persists R P) {s t : ExtractState ω} (h : Asides s t) :
    Settles R P s t := .of_objects (hP.asides h) h.sameGraph.1

/-- A child has joined the graph, and has been settled. -/
lemma Settles.recorded (hP : Persists R P) {parent artifact : InputArtifact} {member : Member}
    {depth : ℕ} {content : Bytes} {result : ScanJob} {s t : ExtractState ω}
    (h : Settles R P (recorded parent member depth artifact content result s) t)
    (hchild : P t (depth, content)) : Settles R P s t := by
  obtain ⟨found, hfound, hsettled⟩ := h.objects
  have hgrows : R s (ContainerAnalyzer.recorded parent member depth artifact content result s) :=
    hP.trans _ _ _ (hP.trans _ _ _ (hP.write _ _) (hP.write _ _)) (hP.write _ _)
  refine ⟨hP.trans _ _ _ hgrows h.grows, (depth, content) :: found, ?_,
    List.forall_mem_cons.2 ⟨hchild, hsettled⟩⟩
  rw [hfound, List.append_cons]
  rfl

end Objects

/-! ## What an extraction preserves -/

section Extraction

variable {scans : Scans ω} {R : ExtractState ω → ExtractState ω → Prop}

lemma deepest_takes {content : Bytes} :
    Takes (fun _ => Pure.pure ()) [] (do
      let kind ← decode .kind (kindOf env content)
      if kind.isSome then limit "RECURSION_LIMIT_REACHED" : Extract ω Unit) :=
  .bind_nil (.decode _ _) fun _ => .ite (fun _ => .limit _) fun _ => .pure _

lemma below_moves (hR : Respected R) {recurse : Recurse ω} {depth : ℕ} {artifact : InputArtifact}
    {content : Bytes} (h : Moves R (recurse depth artifact content)) :
    Moves R (below env recurse depth artifact content) := by
  refine Moves.ite ?_ h
  exact deepest_takes.moves hR fun _ hmember => absurd hmember List.not_mem_nil

/-- By induction on the fuel: what the minor writes respect, and `_child` if what is below the
child does, an object respects. -/
lemma processObject_moves (hR : Respected R)
    (hchild : ∀ recurse source,
      (∀ depth artifact content, Moves R (recurse depth artifact content)) →
        ∀ member ∈ objectMembers env source.content,
          Moves R (childOf env scans recurse source member))
    (fuel depth : ℕ) (parent : InputArtifact) (content : Bytes) :
    Moves R (processObject env scans fuel depth parent content) := by
  induction fuel generalizing depth parent content with
  | zero =>
      have hdecode : Takes (fun _ => Pure.pure ()) []
          (decode .stack (.error recursionError) : Extract ω Unit) := .decode _ _
      exact hdecode.moves hR fun _ hmember => absurd hmember List.not_mem_nil
  | succ fuel ih =>
      exact (objectBody_takes env scans (processObject env scans fuel)
        ⟨parent, depth, content⟩).moves hR (hchild _ _ ih)

/-- Between the processing of the root and the `finally` clause there are minor writes only. -/
lemma process_final (hR : Respected R) (env : ExtractEnv) (scans : Scans ω) (source : Bytes)
    (s : ExtractState ω) :
    ∃ t, R (final (processObject env scans (recursionFuel env) 0 s.job.inputArtifact source)
        (begin source s)) t ∧ final (process env scans source) s = removed t := by
  have hconclude : Takes (fun _ => Pure.pure ()) [] (conclude : Extract ω Unit) :=
    .get_bind fun _ => .ite (fun _ => .perform rfl) fun _ => .pure _
  have hconcludes := hconclude.moves hR fun _ hmember => absurd hmember List.not_mem_nil
  have hprocessed : R (final (processObject env scans (recursionFuel env) 0 s.job.inputArtifact
      source) (begin source s)) (final (processBody env scans source) (begin source s)) := by
    have hbody : processBody env scans source (begin source s) = (processObject env scans
        (recursionFuel env) 0 s.job.inputArtifact source >>= fun _ => conclude)
          (begin source s) := rfl
    rw [final, final, hbody, ← final, ← final]
    cases hrun : processObject env scans (recursionFuel env) 0 s.job.inputArtifact source
        (begin source s) with
    | ok a t =>
        rw [final_bind_of_ok hrun, final_of_ok hrun]
        exact hconcludes t
    | error exc t =>
        rw [final_bind_of_error hrun, final_of_error hrun]
        exact hR.refl t
  cases hbody : processBody env scans source (begin source s) with
  | ok a t =>
      rw [final_of_ok hbody] at hprocessed
      exact ⟨t, hprocessed, final_of_ok (process_of_ok hbody)⟩
  | error exc t =>
      rw [final_of_error hbody] at hprocessed
      have hexcepted : R t (excepted exc t) := hR.trans _ _ _ (hR.minor _ rfl _) (hR.minor _ rfl _)
      have hprocess := process_of_error hbody
      split at hprocess
      · exact ⟨excepted exc t, hR.trans _ _ _ hprocessed hexcepted, final_of_ok hprocess⟩
      · exact ⟨t, hprocessed, final_of_error hprocess⟩

end Extraction

end ContainerAnalyzer

end AVBox
