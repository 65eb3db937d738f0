import AVBox.Analyzers.Visits
import AVBox.Analyzers.ObjectGraph
import Mathlib.Data.List.Infix

/-!
# The members of external archives

`_extract_stdout` asks the tool for a member by its name, and the tool takes the name for a pattern
and writes every member that matches it.  `external_members` says when the output is the member
itself, and that its children then are the members of the listing, each with its own bytes and none
twice.  `duplicateNames` is an archive in which both members come out as one file.
-/

namespace AVBox

open Program Transitions

namespace ContainerAnalyzer

/-! ## Archives -/

/-- A member of an archive, as it is listed, and its bytes. -/
structure ArchiveMember where
  name : PyStr
  directory : Bool
  size : ℤ
  bytes : Bytes
  empty : directory = true → bytes = []

/-- The row of the listing. -/
def ArchiveMember.row (member : ArchiveMember) : ExternalMember :=
  ⟨member.name, member.directory, .ok member.size⟩

/-- The members whose path matches a pattern, one after the other. -/
def selected (matching : PyStr → PyStr → Bool) (members : List ArchiveMember) (pattern : PyStr) :
    Bytes :=
  members.flatMap fun member => if matching pattern member.name then member.bytes else []

/-- The tool lists these members, and when it has come to its end it has written those that match
the name it was given.  Every name matches itself. -/
structure IsArchive (matching : PyStr → PyStr → Bool) (env : ExtractEnv) (content : Bytes)
    (kind : Kind) (members : List ArchiveMember) : Prop where
  external : kind ∈ [Kind.iso9660, .sevenZip, .cab, .arj]
  listing : env.listArchive kind content = .members (.ok (members.map ArchiveMember.row))
  output : ∀ member ∈ members, (env.runTool content member.name).ending = .exit 0 →
    (env.runTool content member.name).chunks.flatten = selected matching members member.name
  self : ∀ member ∈ members, matching member.name member.name = true

/-- A file within the limits for one child, which the tool extracts. -/
structure Extractable (env : ExtractEnv) (content : Bytes) (member : ArchiveMember) : Prop where
  file : member.directory = false
  safe : safeName env member.name = true
  size : member.size ≤ env.budget.maxSingleChildBytes
  length : member.bytes.length ≤ env.budget.maxSingleChildBytes
  exit : (env.runTool content member.name).ending = .exit 0

/-- Whatever else matches the name of a member is empty. -/
def Alone (matching : PyStr → PyStr → Bool) (members : List ArchiveMember) (index : ℕ)
    (member : ArchiveMember) : Prop :=
  ∀ i other, members[i]? = some other → i ≠ index → matching member.name other.name = true →
    other.bytes = []

lemma flatten_ofBytes (data : Bytes) : (ByteStream.ofBytes data).chunks.flatten = data :=
  Binary.flatten_chunks (by decide) data

lemma getElem?_of_take {α : Type} {items : List α} {count index : ℕ} {item : α}
    (h : (items.take count)[index]? = some item) : items[index]? = some item := by
  rw [List.getElem?_take] at h
  exact (Option.ite_none_right_eq_some.1 h).2

lemma flatMap_eq_iff {α β : Type} {items : List α} {f : α → List β} {index : ℕ} {item : α}
    (h : items[index]? = some item) :
    items.flatMap f = f item ↔ ∀ i other, items[i]? = some other → i ≠ index → f other = [] := by
  induction items generalizing index with
  | nil => cases h
  | cons first rest ih =>
      rw [List.flatMap_cons]
      cases index with
      | zero =>
          obtain rfl : first = item := Option.some.inj h
          rw [List.append_right_eq_self, List.flatMap_eq_nil_iff]
          refine ⟨fun hrest i other hother hi => ?_, fun hrest other hother => ?_⟩
          · cases i with
            | zero => exact absurd rfl hi
            | succ i => exact hrest other (List.mem_of_getElem? hother)
          · obtain ⟨i, hi⟩ := List.mem_iff_getElem?.1 hother
            exact hrest (i + 1) other hi (Nat.succ_ne_zero i)
      | succ index =>
          have hitem : rest[index]? = some item := h
          refine ⟨fun hflat => ?_, fun hothers => ?_⟩
          · -- the item is among the rest, which leaves no room for the first one
            have hlength := congrArg List.length hflat
            have hmem := List.mem_of_getElem? hitem
            have hle := (List.sublist_flatten_of_mem (List.mem_map_of_mem (f := f) hmem)).length_le
            rw [← List.flatMap_def] at hle
            rw [List.length_append] at hlength
            have hfirst : f first = [] := List.length_eq_zero_iff.1 (by omega)
            rw [hfirst, List.nil_append] at hflat
            intro i other hother hi
            cases i with
            | zero =>
                obtain rfl : first = other := Option.some.inj hother
                exact hfirst
            | succ i => exact (ih hitem).1 hflat i other hother fun heq => hi (congrArg _ heq)
          · rw [hothers 0 first rfl (Nat.succ_ne_zero index).symm, List.nil_append]
            exact (ih hitem).2 fun i other hother hi =>
              hothers (i + 1) other hother fun heq => hi (Nat.succ.inj heq)

section Archive

variable {matching : PyStr → PyStr → Bool} {env : ExtractEnv} {content : Bytes} {kind : Kind}
  {members : List ArchiveMember} {index : ℕ} {member : ArchiveMember}

lemma selected_eq_iff (hmember : members[index]? = some member)
    (hself : matching member.name member.name = true) :
    selected matching members member.name = member.bytes ↔ Alone matching members index member := by
  have hiff := flatMap_eq_iff (f := fun other : ArchiveMember =>
    if matching member.name other.name then other.bytes else []) hmember
  rw [hself, if_pos rfl] at hiff
  rw [selected, hiff]
  refine ⟨fun h i other hother hi hmatches => ?_, fun h i other hother hi => ?_⟩
  · have hnil := h i other hother hi
    rwa [if_pos hmatches] at hnil
  · by_cases hmatches : matching member.name other.name = true
    · rw [if_pos hmatches]
      exact h i other hother hi hmatches
    · rw [if_neg hmatches]

/-- What `_extract_stdout` returns for a member is the member exactly if nothing else matches its
name, but for empty members. -/
lemma toolOutput_eq_iff (h : IsArchive matching env content kind members)
    (hmember : members[index]? = some member) (hextractable : Extractable env content member) :
    toolOutput env (env.runTool content member.name) = .ok (some member.bytes) ↔
      Alone matching members index member := by
  have hmem := List.mem_of_getElem? hmember
  have houtput := h.output member hmem hextractable.exit
  have hselected := selected_eq_iff hmember (h.self member hmem)
  unfold toolOutput
  rw [houtput, hextractable.exit]
  dsimp only
  by_cases hlong : (selected matching members member.name).length >
      env.budget.maxSingleChildBytes
  · rw [if_pos hlong]
    refine ⟨fun heq => (by cases heq), fun halone => ?_⟩
    rw [hselected.2 halone] at hlong
    exact absurd hextractable.length (Nat.not_le.2 hlong)
  · rw [if_neg hlong, if_pos rfl, ← hselected]
    exact ⟨fun heq => Option.some.inj (Except.ok.inj heq), fun heq => by rw [heq]⟩

end Archive

/-! ## The children of an object -/

variable {ω : Type} {env : ExtractEnv} {scans : Scans ω}

/-- The children that a part of an extraction has put below an object of a depth, by their indices,
with their contents. -/
def Adopts (depth : ℕ) (s t : ExtractState ω) (children : List (ℕ × Bytes)) : Prop :=
  ∃ found : List (DerivedObject × Bytes),
    t.job.derivedObjects = s.job.derivedObjects ++ found.map Prod.fst ∧
      t.trace.objects = s.trace.objects ++ found.map (fun entry => (entry.1.depth, entry.2)) ∧
      (∀ entry ∈ found, depth < entry.1.depth) ∧
      (found.filter fun entry => entry.1.depth = depth + 1).map
        (fun entry => (entry.1.memberIndex, entry.2)) = children

section Adopts

variable {depth : ℕ} {s t u : ExtractState ω} {children children' : List (ℕ × Bytes)}

lemma Adopts.of_sameGraph (h : SameGraph s t) : Adopts depth s t [] :=
  ⟨[], by rw [h.2.1, List.map_nil, List.append_nil], by rw [h.1, List.map_nil, List.append_nil],
    fun _ hmem => absurd hmem List.not_mem_nil, rfl⟩

lemma Adopts.trans (h : Adopts depth s t children) (h' : Adopts depth t u children') :
    Adopts depth s u (children ++ children') := by
  obtain ⟨found, hderived, hobjects, hdeeper, rfl⟩ := h
  obtain ⟨found', hderived', hobjects', hdeeper', rfl⟩ := h'
  refine ⟨found ++ found', ?_, ?_, List.forall_mem_append.2 ⟨hdeeper, hdeeper'⟩, ?_⟩
  · rw [hderived', hderived, List.map_append, List.append_assoc]
  · rw [hobjects', hobjects, List.map_append, List.append_assoc]
  · rw [List.filter_append, List.map_append]

/-- A child joins the graph, and what it adopts is deeper. -/
lemma Adopts.recorded {parent artifact : InputArtifact} {member : Member} {content : Bytes}
    {result : ScanJob}
    (h : Adopts (depth + 1) (recorded parent member (depth + 1) artifact content result s) t
      children) :
    Adopts depth s t [(member.index, content)] := by
  obtain ⟨found, hderived, hobjects, hdeeper, -⟩ := h
  refine ⟨(derivedObject parent artifact member (depth + 1) result, content) :: found, ?_, ?_,
    List.forall_mem_cons.2 ⟨Nat.lt_succ_self depth, fun entry hentry =>
      Nat.lt_of_succ_lt (hdeeper entry hentry)⟩, ?_⟩
  · rw [hderived, List.map_cons, List.append_cons]
    rfl
  · rw [hobjects, List.map_cons, List.append_cons]
    rfl
  · have hnone : found.filter (fun entry => entry.1.depth = depth + 1) = [] := by
      refine List.filter_eq_nil_iff.2 fun entry hentry => ?_
      have hlt := hdeeper entry hentry
      simp only [decide_eq_true_eq]
      omega
    rw [List.filter_cons_of_pos (by exact decide_eq_true rfl), hnone]
    rfl

lemma childOf_adopts {recurse : Recurse ω} {source : Source} {member : Member}
    (hrecurse : ∀ artifact content s, ∃ children, Adopts (source.depth + 1) s
      (final (recurse (source.depth + 1) artifact content) s) children) (s : ExtractState ω) :
    ∃ children, Adopts source.depth s (final (childOf env scans recurse source member) s) children ∧
      children.Sublist [(member.index, member.stream.chunks.flatten)] ∧
      (Returns (childOf env scans recurse source member) s →
        Admits env source.content.length member.stream s →
          children = [(member.index, member.stream.chunks.flatten)]) := by
  rcases (childOf_split env scans recurse source member s).final_cases with
    ⟨aside, hlimit⟩ | ⟨artifact, content, result, u, before, rfl, hfinal⟩
  · exact ⟨[], .of_sameGraph aside.sameGraph, List.nil_sublist _,
      fun hreturns hadmits => absurd hadmits (hlimit hreturns)⟩
  · rw [hfinal]
    refine ⟨_, ?_, .refl _, fun _ _ => rfl⟩
    have hbelow : ∀ s, ∃ children, Adopts (source.depth + 1) s
        (final (below env recurse (source.depth + 1) artifact member.stream.chunks.flatten) s)
          children := by
      intro s
      unfold below
      split
      · exact ⟨[], .of_sameGraph (deepest_takes.asides s).sameGraph⟩
      · exact hrecurse _ _ s
    obtain ⟨children, hadopts⟩ := hbelow
      (recorded source.parent member (source.depth + 1) artifact _ result u)
    exact (Adopts.of_sameGraph before.sameGraph).trans hadopts.recorded

/-- What the members visited in a run become. -/
lemma run_adopts {recurse : Recurse ω} {source : Source}
    (hrecurse : ∀ artifact content s, ∃ children, Adopts (source.depth + 1) s
      (final (recurse (source.depth + 1) artifact content) s) children)
    {trace : List (ExtractState ω × Action)}
    (hrun : Run (Handles (childOf env scans recurse source)) s trace t) :
    ∃ children, Adopts source.depth s t children ∧
      children.Sublist
        ((visited trace).map fun member => (member.index, member.stream.chunks.flatten)) ∧
      ∀ u member, (u, .visit member) ∈ trace →
        Returns (childOf env scans recurse source member) u →
          Admits env source.content.length member.stream u →
            (member.index, member.stream.chunks.flatten) ∈ children := by
  induction hrun with
  | nil =>
      exact ⟨[], .of_sameGraph ⟨rfl, rfl, rfl⟩, List.nil_sublist _,
        fun _ _ hmem => absurd hmem List.not_mem_nil⟩
  | @snoc trace u v action run step ih =>
      obtain ⟨children, hadopts, hsublist, hadmitted⟩ := ih
      rw [visited_append, List.map_append]
      cases action with
      | write write =>
          obtain ⟨hminor, rfl⟩ := step
          have hsame : Adopts source.depth u (write.apply u) [] :=
            .of_sameGraph (asides_respected.minor write hminor u).sameGraph
          refine ⟨children ++ [], hadopts.trans hsame, hsublist.append (List.nil_sublist _), ?_⟩
          intro w member hmem
          rw [List.append_nil]
          refine hadmitted w member ((List.mem_append.1 hmem).resolve_right fun hlast => ?_)
          cases List.mem_singleton.1 hlast
      | visit visitedMember =>
          obtain rfl : v = final (childOf env scans recurse source visitedMember) u := step
          obtain ⟨children', hadopts', hsublist', hadmits⟩ :=
            @childOf_adopts ω env scans recurse source visitedMember hrecurse u
          refine ⟨children ++ children', hadopts.trans hadopts', hsublist.append hsublist', ?_⟩
          intro w member hmem hreturns hlimits
          rcases List.mem_append.1 hmem with hbefore | hlast
          · exact List.mem_append_left _ (hadmitted w member hbefore hreturns hlimits)
          · cases List.mem_singleton.1 hlast
            rw [hadmits hreturns hlimits]
            exact List.mem_append_right _ (List.mem_singleton_self _)

/-- By induction on the fuel: an object adopts children. -/
lemma processObject_adopts (fuel depth : ℕ) (parent : InputArtifact) (content : Bytes)
    (s : ExtractState ω) :
    ∃ children, Adopts depth s (final (processObject env scans fuel depth parent content) s)
      children := by
  induction fuel generalizing depth parent content s with
  | zero => exact ⟨[], .of_sameGraph ⟨rfl, rfl, rfl⟩⟩
  | succ fuel ih =>
      obtain ⟨trace, hrun, -⟩ := objectBody_takes env scans (processObject env scans fuel)
        ⟨parent, depth, content⟩ s
      obtain ⟨children, hadopts, -⟩ := run_adopts (fun artifact content s => ih _ _ _ _) hrun
      exact ⟨children, hadopts⟩

end Adopts

/-! ## The members that are handed on -/

/-- A run of `x` that returns visits all of the members, or ends where `P` holds. -/
def Completes {α : Type} (visit : Visit ω) (members : List Member) (P : ExtractState ω → Prop)
    (x : Extract ω α) : Prop :=
  ∀ s, ∃ trace, Run (Handles visit) s trace (final x s) ∧ (visited trace).Sublist members ∧
    (Returns x s → visited trace = members ∨ P (final x s))

section Completes

variable {visit : Visit ω} {P : ExtractState ω → Prop} {content : Bytes} {kind : Kind}

lemma Completes.bind_nil {α β : Type} {members : List Member} {x : Extract ω α}
    {f : α → Extract ω β} (hx : Takes visit [] x)
    (hf : ∀ a, (∃ s t, x s = .ok a t) → Completes visit members P (f a)) :
    Completes visit members P (x >>= f) := by
  intro s
  obtain ⟨trace, hrun, hvisited⟩ := hx s
  have hnone := List.sublist_nil.1 hvisited
  cases hcase : x s with
  | error exc t =>
      refine ⟨trace, ?_, hnone ▸ List.nil_sublist _, fun hreturns => ?_⟩
      · rwa [final_bind_of_error hcase, ← final_of_error hcase]
      · exact absurd hreturns (not_returns_iff.2 ⟨exc, t, bind_of_error hcase f⟩)
  | ok a t =>
      obtain ⟨trace', hrun', hvisited', hcomplete⟩ := hf a ⟨s, t, hcase⟩ t
      rw [final_of_ok hcase] at hrun
      refine ⟨trace ++ trace', ?_, ?_, fun hreturns => ?_⟩
      · rw [final_bind_of_ok hcase]
        exact hrun.trans hrun'
      · rwa [visited_append, hnone]
      · rw [Returns, raised, bind_of_ok hcase, ← raised, ← Returns] at hreturns
        rw [visited_append, hnone, final_bind_of_ok hcase]
        exact hcomplete hreturns

lemma extractExternal_of_stream {name : PyStr} {stream : ByteStream}
    (h : externalStream env content kind name = some stream) (s : ExtractState ω) :
    extractExternal env kind content name s = .ok (some stream) s := by
  unfold externalStream at h
  unfold extractExternal
  split at h
  next hlha =>
    rw [if_pos hlha]
    cases hextract : env.extractLha content name with
    | ok extracted =>
        rw [hextract] at h
        obtain rfl : extracted = some stream := h
        rfl
    | error exc =>
        rw [hextract] at h
        cases h
  next hlha =>
    rw [if_neg hlha]
    cases houtput : toolOutput env (env.runTool content name) with
    | ok output =>
        rw [houtput] at h
        obtain ⟨bytes, rfl, rfl⟩ := Option.map_eq_some_iff.1 h
        rfl
    | error exc =>
        rw [houtput] at h
        cases h

/-- The pass for a row visits its member, if it has one. -/
lemma externalMember_visits (row : ExternalMember) (index : ℕ) (s : ExtractState ω) :
    ∃ trace,
      Run (Handles visit) s trace (final (externalMember env visit kind content row index) s) ∧
        visited trace = (externalChild env content kind row index).toList := by
  cases hchild : externalChild env content kind row index with
  | none =>
      obtain ⟨trace, hrun, hvisited⟩ :=
        (handlerRules_takes env visit).externalMember kind row index s
      rw [hchild] at hvisited
      exact ⟨trace, hrun, List.sublist_nil.1 hvisited⟩
  | some member =>
      simp only [externalChild, Option.ite_none_left_eq_some] at hchild
      obtain ⟨hsafe, hfile, hdeclared⟩ := hchild
      cases hrow : row.declared with
      | error exc =>
          rw [hrow] at hdeclared
          cases hdeclared
      | ok declared =>
          rw [hrow] at hdeclared
          obtain ⟨hsize, hstream⟩ := Option.ite_none_left_eq_some.1 hdeclared
          obtain ⟨stream, hextract, rfl⟩ := Option.map_eq_some_iff.1 hstream
          have hpass : externalMember env visit kind content row index s =
              visit ⟨stream, row.name, index, externalRelation kind⟩ s := by
            rw [externalMember, if_neg hsafe, if_neg hfile, hrow, decode, pure_bind_apply,
              if_neg hsize, bind_of_ok (extractExternal_of_stream hextract s)]
          rw [final, hpass, ← final]
          exact ⟨[(s, .visit ⟨stream, row.name, index, externalRelation kind⟩)],
            .snoc .nil rfl, rfl⟩

/-- The loop over the members of an archive completes, unless the limit for the whole extraction
ends it. -/
lemma forEach_completes {γ : Type} {passes : List γ} {body : γ → Extract ω Unit}
    {candidate : γ → Option Member}
    (h : ∀ pass s, ∃ trace, Run (Handles visit) s trace (final (body pass) s) ∧
      visited trace = (candidate pass).toList) :
    Completes visit (passes.flatMap fun pass => (candidate pass).toList)
      (fun t => env.budget.maxTotalChildren ≤ t.usage.childrenMaterialized)
      (forEach (fun pass => memberPass env (body pass)) passes) := by
  induction passes with
  | nil => exact fun s => ⟨[], .nil, List.nil_sublist _, fun _ => .inl rfl⟩
  | cons first passes ih =>
      intro s
      by_cases htotal : env.budget.maxTotalChildren ≤ s.usage.childrenMaterialized
      · -- the loop ends here, with what its first two writes leave
        have hrun : forEach (fun pass => memberPass env (body pass)) (first :: passes) s =
            .ok () ((Write.event "TOTAL_CHILD_COUNT_LIMIT").apply (Write.discovered.apply s)) :=
          bind_of_ok (memberPass_of_ge (body first) htotal) _
        rw [final_of_ok hrun]
        refine ⟨[(s, .write .discovered), (Write.discovered.apply s,
          .write (.event "TOTAL_CHILD_COUNT_LIMIT"))], ?_, List.nil_sublist _, fun _ => .inr ?_⟩
        · exact (Run.snoc .nil ⟨rfl, rfl⟩).snoc ⟨rfl, rfl⟩
        · have hgrows := (grows_apply s .discovered).trans
            (grows_apply _ (.event "TOTAL_CHILD_COUNT_LIMIT"))
          exact htotal.trans hgrows.materialized
      · have hlt := Nat.lt_of_not_le htotal
        have hpass := memberPass_of_lt (body first) hlt
        obtain ⟨trace, hrun, hvisited⟩ := h first (Write.discovered.apply s)
        have hdiscovered : Run (Handles visit) s [(s, .write .discovered)]
            (Write.discovered.apply s) := .snoc .nil ⟨rfl, rfl⟩
        rw [List.flatMap_cons]
        cases hbody : body first (Write.discovered.apply s) with
        | error exc t =>
            rw [final_of_error hbody] at hrun
            have hraised : forEach (fun pass => memberPass env (body pass)) (first :: passes) s =
                .error exc t := bind_of_error (hpass.trans (bind_of_error hbody _)) _
            rw [final_of_error hraised]
            refine ⟨[(s, .write .discovered)] ++ trace, hdiscovered.trans hrun, ?_,
              fun hreturns => absurd hreturns (not_returns_iff.2 ⟨exc, t, hraised⟩)⟩
            rw [visited_append, hvisited]
            exact List.sublist_append_left _ _
        | ok a t =>
            rw [final_of_ok hbody] at hrun
            have hnext : forEach (fun pass => memberPass env (body pass)) (first :: passes) s =
                forEach (fun pass => memberPass env (body pass)) passes t :=
              bind_of_ok (hpass.trans (bind_of_ok hbody _)) _
            obtain ⟨trace', hrun', hvisited', hcomplete⟩ := ih t
            rw [final, hnext, ← final, Returns, raised, hnext, ← raised, ← Returns]
            refine ⟨([(s, .write .discovered)] ++ trace) ++ trace',
              (hdiscovered.trans hrun).trans hrun', ?_, fun hreturns => ?_⟩
            · rw [visited_append, visited_append, hvisited]
              exact (List.Sublist.refl _).append hvisited'
            · rw [visited_append, visited_append, hvisited]
              exact (hcomplete hreturns).imp (congrArg _) id

/-- What ends the loop over the members before its time. -/
def Stopped (env : ExtractEnv) (t : ExtractState ω) : Prop :=
  env.budget.maxTotalChildren ≤ t.usage.childrenMaterialized ∨
    "EXTRACTION_TIME_LIMIT" ∈ t.usage.limitEvents

lemma processExternalArchive_completes {rows : List ExternalMember}
    (hlisting : env.listArchive kind content = .members (.ok rows)) :
    Completes visit (externalMembers env content kind) (Stopped env)
      (processExternalArchive env visit kind content) := by
  unfold processExternalArchive externalMembers
  rw [hlisting]
  refine .bind_nil (.decode _ _) fun rows' hrows => ?_
  obtain ⟨s, t, hrows⟩ := hrows
  obtain ⟨rfl, -⟩ := EStateM.Result.ok.inj hrows
  rw [eachMember_eq]
  refine .bind_nil (.ite (fun _ => .limit _) fun _ => .pure _) fun _ _ s => ?_
  obtain ⟨trace, hrun, hvisited, hcomplete⟩ := @forEach_completes ω env visit _
    (rows.take env.budget.maxChildrenPerObject).zipIdx
    (fun row => externalMember env visit kind content row.1 row.2)
    (fun row => externalChild env content kind row.1 row.2)
    (fun row s => externalMember_visits row.1 row.2 s) s
  exact ⟨trace, hrun, hvisited, fun hreturns => (hcomplete hreturns).imp id .inl⟩

/-- An object that is taken for an external archive. -/
lemma objectBody_completes {recurse : Recurse ω} {source : Source} {rows : List ExternalMember}
    (hexternal : kind ∈ [Kind.iso9660, .sevenZip, .cab, .arj])
    (hlisting : env.listArchive kind source.content = .members (.ok rows))
    (hdocument : documentOf env source.content = none)
    (hkind : kindOf env source.content = .ok (some kind))
    (hdepth : source.depth < env.budget.maxRecursionDepth) :
    Completes (childOf env scans recurse source) (externalMembers env source.content kind)
      (Stopped env) (objectBody env scans recurse source) := by
  refine .bind_nil Takes.rules.expired fun late _ => ?_
  split
  · intro s
    obtain ⟨trace, hrun, hvisited⟩ := (Takes.limit "EXTRACTION_TIME_LIMIT" :
      Takes (childOf env scans recurse source) (externalMembers env source.content kind)
        (limit "EXTRACTION_TIME_LIMIT" : Extract ω Unit)) s
    exact ⟨trace, hrun, hvisited, fun _ => .inr (.inr (mem_addEvent _ _))⟩
  rw [if_neg (Nat.not_le.2 hdepth)]
  refine .bind_nil Takes.rules.readDocument fun document hresult => ?_
  obtain ⟨s, t, hread⟩ := hresult
  obtain rfl : document = none := (readDocument_eq_ok hread).symm.trans hdocument
  refine .bind_nil (.decode _ _) fun kind' hresult => ?_
  obtain ⟨s', t', hdecode⟩ := hresult
  obtain rfl := Except.ok.inj (hkind.symm.trans (decode_eq_ok hdecode).1)
  have harchive := @processExternalArchive_completes ω env (childOf env scans recurse source)
    source.content kind rows hlisting
  simp only [List.mem_cons, List.not_mem_nil, or_false] at hexternal
  rcases hexternal with rfl | rfl | rfl | rfl <;> exact harchive

end Completes

/-! ## The children of an archive -/

/-- What is handed on for a member, if it is the member itself. -/
def ownMember (kind : Kind) (member : ArchiveMember) (index : ℕ) : Member :=
  ⟨.ofBytes member.bytes, member.name, index, externalRelation kind⟩

/-- Nothing but empty members matches the name of another file that the tool extracts. -/
def Separate (matching : PyStr → PyStr → Bool) (env : ExtractEnv) (content : Bytes)
    (members : List ArchiveMember) : Prop :=
  ∀ index member, (members.take env.budget.maxChildrenPerObject)[index]? = some member →
    Extractable env content member → Alone matching members index member

/-- The processing of an archive, however it ends, gives it children with distinct indices, each
with the bytes of its own member.  If it returns, then unless it was stopped each file within the
limits has been handed on, and has become a child if the limits for extraction let it through. -/
def OwnChildren (env : ExtractEnv) (scans : Scans ω) (kind : Kind) (members : List ArchiveMember)
    (recurse : Recurse ω) (source : Source) (s : ExtractState ω) : Prop :=
  ∃ trace children,
    Run (Handles (childOf env scans recurse source)) s trace
        (final (objectBody env scans recurse source) s) ∧
      Adopts source.depth s (final (objectBody env scans recurse source) s) children ∧
      (children.map Prod.fst).Nodup ∧
      (∀ child ∈ children, ∃ member, members[child.1]? = some member ∧ child.2 = member.bytes) ∧
      (Returns (objectBody env scans recurse source) s →
        Stopped env (final (objectBody env scans recurse source) s) ∨
          ∀ index member, (members.take env.budget.maxChildrenPerObject)[index]? = some member →
            Extractable env source.content member →
              ∃ u, (u, .visit (ownMember kind member index)) ∈ trace ∧
                (Returns (childOf env scans recurse source (ownMember kind member index)) u →
                  Admits env source.content.length (.ofBytes member.bytes) u →
                    (index, member.bytes) ∈ children))

section Children

variable {matching : PyStr → PyStr → Bool} {content : Bytes} {kind : Kind}
  {members : List ArchiveMember} {index : ℕ} {member : ArchiveMember}

/-- If a candidate has the index of its item, no two have one index. -/
lemma nodup_capped {α : Type} (items : List α) {candidate : α → ℕ → Option Member}
    (h : ∀ item index member, candidate item index = some member → member.index = index) :
    ((capped env items candidate).map Member.index).Nodup := by
  have hsublist : ∀ indexed : List (α × ℕ),
      ((indexed.flatMap fun item => (candidate item.1 item.2).toList).map Member.index).Sublist
        (indexed.map Prod.snd) := by
    intro indexed
    induction indexed with
    | nil => exact .slnil
    | cons first rest ih =>
        rw [List.flatMap_cons, List.map_append, List.map_cons]
        cases hfirst : candidate first.1 first.2 with
        | none => exact ih.cons _
        | some member =>
            have hindex := h _ _ _ hfirst
            rw [Option.toList_some, List.map_cons, hindex, List.map_nil, List.singleton_append]
            exact ih.cons_cons _
  refine (hsublist _).nodup ?_
  rw [List.zipIdx_map_snd]
  exact List.nodup_range'

lemma externalChild_index {row : ExternalMember} {child : Member}
    (h : externalChild env content kind row index = some child) : child.index = index := by
  simp only [externalChild, Option.ite_none_left_eq_some] at h
  obtain ⟨-, -, hdeclared⟩ := h
  split at hdeclared
  · obtain ⟨-, hstream⟩ := Option.ite_none_left_eq_some.1 hdeclared
    obtain ⟨stream, -, rfl⟩ := Option.map_eq_some_iff.1 hstream
    rfl
  · cases hdeclared

lemma kind_ne_lha (hexternal : kind ∈ [Kind.iso9660, .sevenZip, .cab, .arj]) : kind ≠ .lha := by
  rintro rfl
  exact absurd hexternal (by decide)

/-- Of a member that stands alone, the candidate is the member itself. -/
lemma externalChild_eq_own (h : IsArchive matching env content kind members)
    (hmember : members[index]? = some member) (hextractable : Extractable env content member)
    (halone : Alone matching members index member) :
    externalChild env content kind member.row index = some (ownMember kind member index) := by
  have houtput := (toolOutput_eq_iff h hmember hextractable).2 halone
  have hstream : externalStream env content kind member.name = some (.ofBytes member.bytes) := by
    rw [externalStream, if_neg (kind_ne_lha h.external), houtput]
    rfl
  unfold externalChild ArchiveMember.row
  dsimp only
  rw [hextractable.safe, hextractable.file, hstream, if_neg Bool.noConfusion,
    if_neg Bool.noConfusion, if_neg (Int.not_lt.2 hextractable.size)]
  rfl

/-- A member with a candidate can be extracted. -/
lemma extractable_of_child (h : IsArchive matching env content kind members)
    (hmember : members[index]? = some member) {child : Member}
    (hchild : externalChild env content kind member.row index = some child) :
    Extractable env content member := by
  have hdeclared : member.row.declared = .ok member.size := rfl
  have hname : member.row.name = member.name := rfl
  simp only [externalChild, Option.ite_none_left_eq_some] at hchild
  obtain ⟨hsafe, hfile, hchild⟩ := hchild
  rw [hname] at hsafe hchild
  rw [hdeclared] at hchild
  obtain ⟨hsize, hchild⟩ := Option.ite_none_left_eq_some.1 hchild
  obtain ⟨stream, hstream, -⟩ := Option.map_eq_some_iff.1 hchild
  rw [externalStream, if_neg (kind_ne_lha h.external)] at hstream
  have hmem := List.mem_of_getElem? hmember
  unfold toolOutput at hstream
  split at hstream
  next output houtput =>
    obtain ⟨bytes, rfl, -⟩ := Option.map_eq_some_iff.1 hstream
    split at houtput
    · cases houtput
    next hshort =>
      split at houtput
      next code hexit =>
        by_cases hcode : code = 0
        · subst hcode
          refine ⟨Bool.eq_false_of_not_eq_true hfile, by simpa using hsafe, Int.not_lt.1 hsize, ?_,
            hexit⟩
          -- the member is a part of what the tool has written
          rw [h.output member hmem hexit] at hshort
          have hpart := List.sublist_flatten_of_mem (List.mem_map_of_mem (f := fun other =>
            if matching member.name other.name then ArchiveMember.bytes other else []) hmem)
          rw [← List.flatMap_def, h.self member hmem, if_pos rfl] at hpart
          exact hpart.length_le.trans (Nat.le_of_not_lt hshort)
        · rw [if_neg hcode] at houtput
          cases houtput
      · cases houtput
      · split at houtput
        · cases houtput
        · cases houtput
  · cases hstream

lemma mem_externalMembers_iff (h : IsArchive matching env content kind members)
    (hseparate : Separate matching env content members) {child : Member} :
    child ∈ externalMembers env content kind ↔
      ∃ index member, (members.take env.budget.maxChildrenPerObject)[index]? = some member ∧
        Extractable env content member ∧ child = ownMember kind member index := by
  unfold externalMembers
  rw [h.listing]
  dsimp only
  rw [mem_capped_iff]
  have hrows : ∀ index : ℕ, ((members.map ArchiveMember.row).take
      env.budget.maxChildrenPerObject)[index]? =
        (members.take env.budget.maxChildrenPerObject)[index]?.map ArchiveMember.row := by
    intro index
    rw [← List.map_take, List.getElem?_map]
  constructor
  · rintro ⟨index, row, hrow, hchild⟩
    rw [hrows] at hrow
    obtain ⟨member, hmember, rfl⟩ := Option.map_eq_some_iff.1 hrow
    have hextractable := extractable_of_child h (getElem?_of_take hmember) hchild
    rw [externalChild_eq_own h (getElem?_of_take hmember) hextractable
      (hseparate index member hmember hextractable)] at hchild
    exact ⟨index, member, hmember, hextractable, (Option.some.inj hchild).symm⟩
  · rintro ⟨index, member, hmember, hextractable, rfl⟩
    refine ⟨index, member.row, by rw [hrows, hmember]; rfl, ?_⟩
    exact externalChild_eq_own h (getElem?_of_take hmember) hextractable
      (hseparate index member hmember hextractable)

lemma mem_visited_iff {trace : List (ExtractState ω × Action)} {child : Member} :
    child ∈ visited trace ↔ ∃ u, (u, .visit child) ∈ trace := by
  unfold visited
  rw [List.mem_filterMap]
  constructor
  · rintro ⟨⟨u, action⟩, hmem, haction⟩
    cases action with
    | write write => cases haction
    | visit member =>
        obtain rfl := Option.some.inj haction
        exact ⟨u, hmem⟩
  · rintro ⟨u, hmem⟩
    exact ⟨(u, .visit child), hmem, rfl⟩

/-- The children of an archive whose members are separate. -/
lemma ownChildren_of_separate (h : IsArchive matching env content kind members)
    (hseparate : Separate matching env content members) (hdocument : documentOf env content = none)
    (hkind : kindOf env content = .ok (some kind)) {depth : ℕ}
    (hdepth : depth < env.budget.maxRecursionDepth) (fuel : ℕ) (parent : InputArtifact)
    (s : ExtractState ω) :
    OwnChildren env scans kind members (processObject env scans fuel) ⟨parent, depth, content⟩
      s := by
  obtain ⟨trace, hrun, hvisited, hcomplete⟩ := @objectBody_completes ω env scans kind
    (processObject env scans fuel) ⟨parent, depth, content⟩ _ h.external h.listing hdocument hkind
    hdepth s
  obtain ⟨children, hadopts, hsublist, hadmitted⟩ :=
    run_adopts (fun artifact content s => processObject_adopts _ _ _ _ _) hrun
  refine ⟨trace, children, hrun, hadopts, ?_, fun child hchild => ?_, fun hreturns => ?_⟩
  · have hindices : (children.map Prod.fst).Sublist
        ((externalMembers env content kind).map Member.index) := by
      refine (hsublist.map Prod.fst).trans ?_
      rw [List.map_map]
      exact hvisited.map Member.index
    refine hindices.nodup ?_
    unfold externalMembers
    rw [h.listing]
    exact nodup_capped _ fun row index member hmember => (externalChild_index hmember)
  · obtain ⟨member, hmember, rfl⟩ := List.mem_map.1 (hsublist.subset hchild)
    obtain ⟨index, own, hown, -, rfl⟩ :=
      (mem_externalMembers_iff h hseparate).1 (hvisited.subset hmember)
    exact ⟨own, getElem?_of_take hown, flatten_ofBytes own.bytes⟩
  · refine (hcomplete hreturns).symm.imp id fun hall index member hmember hextractable => ?_
    have hmem : ownMember kind member index ∈ visited trace :=
      hall ▸ (mem_externalMembers_iff h hseparate).2 ⟨index, member, hmember, hextractable, rfl⟩
    obtain ⟨u, hvisit⟩ := mem_visited_iff.1 hmem
    refine ⟨u, hvisit, fun hreturns hadmits => ?_⟩
    have hchild := hadmitted u _ hvisit hreturns hadmits
    rwa [ownMember, flatten_ofBytes] at hchild

end Children

/-- `_extract_stdout` returns the bytes of each file that can be extracted exactly if nothing but
empty members matches the name of another.  The children of such an archive are its own members,
each of them once. -/
theorem external_members {matching : PyStr → PyStr → Bool} {env : ExtractEnv} {content : Bytes}
    {kind : Kind} {members : List ArchiveMember}
    (h : IsArchive matching env content kind members) :
    ((∀ (index : ℕ) (member : ArchiveMember),
      (members.take env.budget.maxChildrenPerObject)[index]? = some member →
        Extractable env content member →
          toolOutput env (env.runTool content member.name) = .ok (some member.bytes)) ↔
      Separate matching env content members) ∧
      (Separate matching env content members → documentOf env content = none →
        kindOf env content = .ok (some kind) →
          ∀ (scans : Scans ω) (fuel depth : ℕ) (parent : InputArtifact) (s : ExtractState ω),
            depth < env.budget.maxRecursionDepth →
              OwnChildren env scans kind members (processObject env scans fuel)
                ⟨parent, depth, content⟩ s) := by
  refine ⟨⟨fun houtput index member hmember hextractable => ?_,
    fun hseparate index member hmember hextractable => ?_⟩,
    fun hseparate hdocument hkind scans fuel depth parent s hdepth =>
      ownChildren_of_separate h hseparate hdocument hkind hdepth fuel parent s⟩
  · exact (toolOutput_eq_iff h (getElem?_of_take hmember) hextractable).1
      (houtput index member hmember hextractable)
  · exact (toolOutput_eq_iff h (getElem?_of_take hmember) hextractable).2
      (hseparate index member hmember hextractable)

/-! ## Two archives -/

/-- A path matches a pattern in which `*` stands for any characters and `?` for any one. -/
def wildcard : PyStr → PyStr → Bool
  | [], path => path.isEmpty
  | c :: pattern, path =>
      if c = 0x2A then path.tails.any (wildcard pattern)
      else match path with
        | [] => false
        | d :: rest => (decide (c = 0x3F) || decide (c = d)) && wildcard pattern rest

lemma wildcard_self (name : PyStr) : wildcard name name = true := by
  induction name with
  | nil => rfl
  | cons c name ih =>
      unfold wildcard
      split
      · exact List.any_eq_true.2 ⟨name, (List.mem_tails _ _).2 (List.suffix_cons c name), ih⟩
      · dsimp only
        rw [ih, Bool.and_true, Bool.or_eq_true]
        exact .inr (decide_eq_true rfl)

/-- The first bytes of a 7z archive. -/
def sevenZipFile : Bytes := [0x37, 0x7A, 0xBC, 0xAF, 0x27, 0x1C]

/-- A tool that reads every file as an archive of these members. -/
def archiveEnv (members : List ArchiveMember) : ExtractEnv :=
  { ExtractEnv.plain with
    listArchive := fun _ _ => .members (.ok (members.map ArchiveMember.row))
    runTool := fun _ name => ⟨[selected wildcard members name], .exit 0⟩ }

lemma isArchive_archiveEnv (members : List ArchiveMember) :
    IsArchive wildcard (archiveEnv members) sevenZipFile .sevenZip members where
  external := by decide
  listing := rfl
  output member _ _ := List.flatten_singleton
  self member _ := wildcard_self member.name

/-- A file of one byte. -/
def oneByte (name : String) (byte : UInt8) : ArchiveMember :=
  ⟨PyStr.ofString name, false, 1, [byte], fun h => absurd h Bool.noConfusion⟩

/-- Two files with different names. -/
def differentNames : List ArchiveMember := [oneByte "a" 0x41, oneByte "b" 0x42]

/-- Two files with the same name. -/
def duplicateNames : List ArchiveMember := [oneByte "a" 0x41, oneByte "a" 0x42]

lemma separate_differentNames :
    Separate wildcard (archiveEnv differentNames) sevenZipFile differentNames := by
  have hnames : ∀ i j : Fin 2, wildcard (differentNames.get i).name (differentNames.get j).name =
      true → j = i := by decide
  intro index member hmember _ i other hother hi hmatches
  obtain ⟨hindex, rfl⟩ := List.getElem?_eq_some_iff.1 (getElem?_of_take hmember)
  obtain ⟨hlt, rfl⟩ := List.getElem?_eq_some_iff.1 hother
  exact absurd (congrArg Fin.val (hnames ⟨index, hindex⟩ ⟨i, hlt⟩ hmatches)) hi

theorem external_members_differentNames :
    toolOutput (archiveEnv differentNames)
        ((archiveEnv differentNames).runTool sevenZipFile (PyStr.ofString "b")) =
          .ok (some [0x42]) ∧
      OwnChildren (archiveEnv differentNames) .silent .sevenZip differentNames
        (processObject (archiveEnv differentNames) .silent 3)
        ⟨(containerJob sevenZipFile).inputArtifact, 0, sevenZipFile⟩
        (begin sevenZipFile (.fresh (containerJob sevenZipFile) ())) := by
  obtain ⟨houtput, hrun⟩ := @external_members Unit _ _ _ _ _ (isArchive_archiveEnv differentNames)
  refine ⟨houtput.2 separate_differentNames 1 (oneByte "b" 0x42) rfl ⟨rfl, ?_, ?_, ?_, rfl⟩,
    hrun separate_differentNames rfl ?_ .silent 3 0 _ _ ?_⟩
  · decide +kernel
  · decide +kernel
  · decide +kernel
  · decide +kernel
  · decide

/-- Either of two files with the same name comes out as both of them. -/
theorem duplicate_names_merged :
    IsArchive wildcard (archiveEnv duplicateNames) sevenZipFile .sevenZip duplicateNames ∧
      ¬∀ object ∈ (final (process (archiveEnv duplicateNames) .silent sevenZipFile)
          (.fresh (containerJob sevenZipFile) ())).trace.objects.tail,
        ∃ member ∈ duplicateNames, object.2 = member.bytes := by
  refine ⟨isArchive_archiveEnv duplicateNames, fun h => ?_⟩
  have hobjects : (final (process (archiveEnv duplicateNames) .silent sevenZipFile)
      (.fresh (containerJob sevenZipFile) ())).trace.objects.tail =
        [(1, [0x41, 0x42]), (1, [0x41, 0x42])] := by decide +kernel
  rw [hobjects] at h
  exact absurd (h (1, [0x41, 0x42]) List.mem_cons_self) (by decide)

end ContainerAnalyzer

end AVBox
