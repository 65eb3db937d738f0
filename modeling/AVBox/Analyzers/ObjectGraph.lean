import AVBox.Analyzers.Handlers

/-!
# The graph of derived objects

`job.derived_objects` lists the objects that an extraction found in preorder, and
`job.relationships` has one edge for each of them.  `Forest` is the shape of the part of the list
that one object contributes; `Grafted` says that a part of an extraction appended such a part, and
the handlers carry it.  `process_objectGraph` reads the whole list off the forest of the root.
-/

namespace AVBox

open Program

/-- `object.sha256` of a derived object. -/
def ObjectRef.sha256? : ObjectRef → Option (Digest 64)
  | .artifact value => some value.hashes.sha256
  | .identity value => some value.sha256
  | .other => none

namespace ContainerAnalyzer

variable {ω : Type} {env : ExtractEnv} {scans : Scans ω}

/-! ## Forests in preorder -/

/-- The objects below one whose depth and SHA-256 are given, each before those below it. -/
inductive Forest : ℕ → Digest 64 → List DerivedObject → Prop
  | nil (depth : ℕ) (parent : Digest 64) : Forest depth parent []
  | node {depth : ℕ} {parent sha256 : Digest 64} {object : DerivedObject}
      {children rest : List DerivedObject} (hdepth : object.depth = depth + 1)
      (hparent : object.parentSha256 = parent) (hsha256 : object.object.sha256? = some sha256)
      (hchildren : Forest (depth + 1) sha256 children) (hrest : Forest depth parent rest) :
      Forest depth parent (object :: (children ++ rest))

lemma Forest.append {depth : ℕ} {parent : Digest 64} {first rest : List DerivedObject}
    (h : Forest depth parent first) (hrest : Forest depth parent rest) :
    Forest depth parent (first ++ rest) := by
  induction h with
  | nil => exact hrest
  | node hdepth hparent hsha256 hchildren _ _ ih =>
      rw [List.cons_append, List.append_assoc]
      exact .node hdepth hparent hsha256 hchildren (ih hrest)

/-- All objects of a forest are deeper than the one they are below. -/
lemma Forest.lt_depth {depth : ℕ} {parent : Digest 64} {objects : List DerivedObject}
    (h : Forest depth parent objects) : ∀ object ∈ objects, depth < object.depth := by
  induction h with
  | nil => exact fun _ hmem => by cases hmem
  | node hdepth _ _ _ _ ihchildren ihrest =>
      intro other hmem
      rcases List.mem_cons.1 hmem with rfl | hmem
      · omega
      · rcases List.mem_append.1 hmem with hmem | hmem
        · exact Nat.lt_of_succ_lt (ihchildren other hmem)
        · exact ihrest other hmem

/-- The last object of a depth. -/
def nearest (depth : ℕ) (objects : List DerivedObject) : Option DerivedObject :=
  objects.reverse.find? fun object => decide (object.depth = depth)

lemma nearest_append {depth : ℕ} {rest : List DerivedObject} {object : DerivedObject}
    (first : List DerivedObject) (h : nearest depth rest = some object) :
    nearest depth (first ++ rest) = some object := by
  unfold nearest at *
  rw [List.reverse_append, List.find?_append, h]
  rfl

lemma nearest_cons {depth : ℕ} {object : DerivedObject} {rest : List DerivedObject}
    (hdepth : object.depth = depth) (hrest : ∀ other ∈ rest, depth < other.depth) :
    nearest depth (object :: rest) = some object := by
  have hnone : rest.reverse.find? (fun other => decide (other.depth = depth)) = none := by
    refine List.find?_eq_none.2 fun other hmem => ?_
    have hlt := hrest other (List.mem_reverse.1 hmem)
    simp only [decide_eq_true_eq]
    omega
  unfold nearest
  rw [List.reverse_cons, List.find?_append, hnone]
  simp [hdepth]

/-- The object below which an object is, among those before it in the list. -/
def ParentIs (depth : ℕ) (parent : Digest 64) (before : List DerivedObject)
    (object : DerivedObject) : Prop :=
  object.depth = depth + 1 ∧ object.parentSha256 = parent ∨
    depth + 1 < object.depth ∧ ∃ other, nearest (object.depth - 1) before = some other ∧
      other.object.sha256? = some object.parentSha256

/-- The parents can be read off the list. -/
lemma Forest.parentIs {depth : ℕ} {parent : Digest 64} {objects : List DerivedObject}
    (h : Forest depth parent objects) {before after : List DerivedObject} {object : DerivedObject}
    (hsplit : objects = before ++ object :: after) : ParentIs depth parent before object := by
  induction h generalizing before after object with
  | nil => cases before <;> cases hsplit
  | @node depth parent sha256 first children rest hdepth hparent hsha256 hchildren _ ihchildren
      ihrest =>
      cases before with
      | nil =>
          cases hsplit
          exact .inl ⟨hdepth, hparent⟩
      | cons head before =>
          obtain ⟨rfl, htail⟩ := List.cons.inj hsplit
          -- an object among the children is below the first one, and one behind them is not
          rcases List.append_eq_append_iff.1 htail with ⟨middle, rfl, hrest⟩ |
            ⟨middle, hleft, hright⟩
          · rcases ihrest hrest with hhere | ⟨hdeeper, other, hnearest, hother⟩
            · exact .inl hhere
            · exact .inr ⟨hdeeper, other, nearest_append (first :: children) hnearest, hother⟩
          · cases middle with
            | nil =>
                rw [List.append_nil] at hleft
                have hfirst : ParentIs depth parent [] object := ihrest hright.symm
                rcases hfirst with hhere | ⟨-, other, hnearest, -⟩
                · exact .inl hhere
                · cases hnearest
            | cons middle below =>
                obtain ⟨rfl, -⟩ := List.cons.inj hright
                have hbefore : ∀ other ∈ before, depth + 1 < other.depth := fun other hmem =>
                  hchildren.lt_depth other (by simp [hleft, hmem])
                refine .inr ⟨hchildren.lt_depth object (by simp [hleft]), ?_⟩
                rcases ihchildren hleft with ⟨hhere, hsame⟩ | ⟨-, other, hnearest, hother⟩
                · refine ⟨first, ?_, hsame ▸ hsha256⟩
                  rw [hhere, Nat.add_sub_cancel]
                  exact nearest_cons hdepth hbefore
                · exact ⟨other, nearest_append [first] hnearest, hother⟩

/-! ## What an object appends -/

/-- The edge of a derived object. -/
structure Matches (object : DerivedObject) (edge : ObjectRelationship) : Prop where
  target : object.object.sha256? = some edge.targetSha256
  source : edge.sourceSha256 = object.parentSha256
  depth : edge.depth = object.depth
  memberName : edge.memberName = object.memberName
  memberIndex : edge.memberIndex = object.memberIndex

/-- The greatest depth of a list of objects. -/
def deepest (objects : List DerivedObject) : ℕ := (objects.map (·.depth)).foldr max 0

lemma deepest_append (first rest : List DerivedObject) :
    deepest (first ++ rest) = max (deepest first) (deepest rest) := by
  induction first with
  | nil => simp [deepest]
  | cons object first ih =>
      simp only [deepest, List.map_cons, List.cons_append, List.foldr_cons] at ih ⊢
      rw [ih, Nat.max_assoc]

/-- A part of an extraction appended a forest below an object, with its edges and counts. -/
def Grafted (depth : ℕ) (parent : Digest 64) (s t : ExtractState ω) : Prop :=
  ∃ found edges, Forest depth parent found ∧ List.Forall₂ Matches found edges ∧
    t.job.derivedObjects = s.job.derivedObjects ++ found ∧
    t.job.relationships = s.job.relationships ++ edges ∧
    t.usage.childrenMaterialized = s.usage.childrenMaterialized + found.length ∧
    t.usage.maxDepthReached = max s.usage.maxDepthReached (deepest found)

variable {depth : ℕ} {parent sha256 : Digest 64} {s t u : ExtractState ω}

lemma Grafted.of_same (hderived : t.job.derivedObjects = s.job.derivedObjects)
    (hrelated : t.job.relationships = s.job.relationships)
    (hmaterialized : t.usage.childrenMaterialized = s.usage.childrenMaterialized)
    (hdeepest : t.usage.maxDepthReached = s.usage.maxDepthReached) :
    Grafted depth parent s t :=
  ⟨[], [], .nil _ _, .nil, by simp [hderived], by simp [hrelated], by simp [hmaterialized],
    by simp [hdeepest, deepest]⟩

lemma Grafted.trans (h : Grafted depth parent s t) (h' : Grafted depth parent t u) :
    Grafted depth parent s u := by
  obtain ⟨found, edges, hforest, hmatches, hderived, hrelated, hmaterialized, hdeepest⟩ := h
  obtain ⟨found', edges', hforest', hmatches', hderived', hrelated',
    hmaterialized', hdeepest'⟩ := h'
  refine ⟨found ++ found', edges ++ edges', hforest.append hforest',
    List.rel_append hmatches hmatches', ?_, ?_, ?_, ?_⟩
  · rw [hderived', hderived, List.append_assoc]
  · rw [hrelated', hrelated, List.append_assoc]
  · rw [hmaterialized', hmaterialized, List.length_append]
    omega
  · rw [hdeepest', hdeepest, deepest_append, Nat.max_assoc]

/-- A child, and then what is below it. -/
lemma Grafted.child (object : DerivedObject) (edge : ObjectRelationship)
    (h : Grafted (depth + 1) sha256 t u)
    (hdepth : object.depth = depth + 1) (hparent : object.parentSha256 = parent)
    (hsha256 : object.object.sha256? = some sha256) (hedge : Matches object edge)
    (hderived : t.job.derivedObjects = s.job.derivedObjects ++ [object])
    (hrelated : t.job.relationships = s.job.relationships ++ [edge])
    (hmaterialized : t.usage.childrenMaterialized = s.usage.childrenMaterialized + 1)
    (hdeepest : t.usage.maxDepthReached = max s.usage.maxDepthReached object.depth) :
    Grafted depth parent s u := by
  obtain ⟨found, edges, hforest, hmatches, hderived', hrelated', hmaterialized', hdeepest'⟩ := h
  refine ⟨object :: found, edge :: edges, ?_, .cons hedge hmatches, ?_, ?_, ?_, ?_⟩
  · have hnode := Forest.node hdepth hparent hsha256 hforest (.nil depth parent)
    rwa [List.append_nil] at hnode
  · rw [hderived', hderived, List.append_assoc]
    rfl
  · rw [hrelated', hrelated, List.append_assoc]
    rfl
  · rw [hmaterialized', hmaterialized, List.length_cons]
    omega
  · rw [hdeepest', hdeepest, Nat.max_assoc]
    rfl

lemma addEvent_maxDepthReached (usage : ExtractionUsage) (event : String) :
    (usage.addEvent event).maxDepthReached = usage.maxDepthReached := by
  unfold ExtractionUsage.addEvent
  split <;> rfl

/-- The minor writes append nothing. -/
lemma grafted_respected (depth : ℕ) (parent : Digest 64) :
    Respected (Grafted (ω := ω) depth parent) where
  refl s := .of_same rfl rfl rfl rfl
  trans _ _ _ := Grafted.trans
  minor write hminor s := by
    cases write with
    | event name =>
        exact .of_same rfl rfl (addEvent_childrenMaterialized _ _) (addEvent_maxDepthReached _ _)
    | begun | derived | related | deeper => cases hminor
    | _ => exact .of_same rfl rfl rfl rfl

lemma grafted_files (depth : ℕ) (parent : Digest 64) :
    FileRules fun _ x => Carries (Grafted (ω := ω) depth parent) x := by
  refine carries_files (grafted_respected depth parent) fun write hfiling s => ?_
  cases write <;> first | exact .of_same rfl rfl rfl rfl | cases hfiling

/-! ## The recursion -/

lemma decode_eq_ok {α : Type} {site : DecodeSite} {r : Except Exc α} {a : α}
    (h : decode site r s = .ok a t) : r = .ok a ∧ t = s := by
  cases r with
  | ok b =>
      cases h
      exact ⟨rfl, rfl⟩
  | error exc => cases h

lemma onScans_eq_ok {α : Type} {x : EStateM Exc ω α} {a : α} (h : onScans x s = .ok a t) :
    t.job = s.job ∧ t.usage = s.usage := by
  simp only [onScans, get_bind_apply] at h
  cases hx : x s.scans with
  | ok b scans' =>
      rw [hx] at h
      cases h
      exact ⟨rfl, rfl⟩
  | error exc scans' =>
      rw [hx] at h
      cases h

/-- A child that has joined the graph is the root of what follows. -/
lemma grafted_recorded {parent artifact : InputArtifact} {member : Member} {content : Bytes}
    {result : ScanJob} (hjob : t.job = s.job)
    (husage : t.usage = ((Write.begun member.relation content).apply s).usage)
    (h : Grafted (depth + 1) artifact.hashes.sha256
      (recorded parent member (depth + 1) artifact content result t) u) :
    Grafted depth parent.hashes.sha256 s u := by
  refine h.child (derivedObject parent artifact member (depth + 1) result)
    (relationshipOf parent artifact member (depth + 1)) rfl rfl rfl ⟨rfl, rfl, rfl, rfl, rfl⟩
    ?_ ?_ ?_ ?_
  · simp only [recorded, Write.apply, Write.change, hjob]
  · simp only [recorded, Write.apply, Write.change, hjob]
  · simp only [recorded, Write.apply, Write.change, husage]
  · simp only [recorded, Write.apply, Write.change, husage]
    rfl

lemma recordChild_grafts {recurse : Recurse ω} {artifact : InputArtifact}
    (hrecurse : ∀ content, Carries (Grafted depth artifact.hashes.sha256)
      (recurse depth artifact content)) (content : Bytes) :
    Carries (Grafted depth artifact.hashes.sha256)
      (if depth ≥ env.budget.maxRecursionDepth then do
        let kind ← decode .kind (kindOf env content)
        if kind.isSome then limit "RECURSION_LIMIT_REACHED"
      else recurse depth artifact content) := by
  have hR := grafted_respected (ω := ω) depth artifact.hashes.sha256
  refine Ends.ite (fun _ => ?_) fun _ => hrecurse content
  refine Ends.bind hR.composes (carries_decode hR _ _) fun kind => ?_
  exact Ends.ite (fun _ => carries_limit hR _) fun _ => Ends.pure hR.composes _

lemma enterChild_grafts {recurse : Recurse ω}
    (hrecurse : ∀ artifact content, Carries (Grafted (depth + 1) artifact.hashes.sha256)
      (recurse (depth + 1) artifact content)) (parent : InputArtifact) (member : Member)
    (number : ℕ) (content : Bytes) :
    Carries (Grafted depth parent.hashes.sha256)
      (enterChild env scans recurse parent member (depth + 1) number content) := by
  intro s
  cases hrun : enterChild env scans recurse parent member (depth + 1) number content s with
  | error exc u => trivial
  | ok a u =>
      simp only [enterChild, get_bind_apply, perform, modify_bind_apply] at hrun
      obtain ⟨artifact, v, hartifact, hrun⟩ := bind_eq_ok.1 hrun
      obtain ⟨result, t, hscan, hrun⟩ := bind_eq_ok.1 hrun
      rw [recordChild_apply] at hrun
      have hrest := Ends.of_ok (recordChild_grafts (hrecurse artifact) content) hrun
      obtain ⟨-, rfl⟩ := decode_eq_ok hartifact
      obtain ⟨hjob, husage⟩ := onScans_eq_ok hscan
      exact grafted_recorded hjob husage hrest

lemma childOf_grafts {recurse : Recurse ω} {source : Source}
    (hrecurse : ∀ artifact content, Carries (Grafted (source.depth + 1) artifact.hashes.sha256)
      (recurse (source.depth + 1) artifact content)) (member : Member) :
    Carries (Grafted source.depth source.parent.hashes.sha256)
      (childOf env scans recurse source member) := by
  have hfiles := grafted_files (ω := ω) source.depth source.parent.hashes.sha256
  have hc := (grafted_respected (ω := ω) source.depth source.parent.hashes.sha256).composes
  refine Ends.bind hc hfiles.canStartChild fun start => Ends.ite (fun _ => ?_) fun _ =>
    Ends.pure hc _
  refine Ends.get_bind fun s => Ends.bind hc (hfiles.materialize _ _) fun read => ?_
  cases read with
  | none => exact Ends.pure hc _
  | some content => exact enterChild_grafts hrecurse _ _ _ _

/-- By induction on the fuel: an object appends a forest below itself. -/
lemma processObject_grafts (fuel depth : ℕ) (parent : InputArtifact) (content : Bytes) :
    Carries (Grafted depth parent.hashes.sha256)
      (processObject env scans fuel depth parent content) := by
  induction fuel generalizing depth parent content with
  | zero =>
      exact (carries_decode (grafted_respected _ _) .stack (.error recursionError) :
        Carries (Grafted depth parent.hashes.sha256) (decode .stack (.error recursionError)))
  | succ fuel ih =>
      show Carries _ (objectBody env scans (processObject env scans fuel) ⟨parent, depth, content⟩)
      exact objectBody_carries (grafted_respected _ _) (childOf_grafts fun artifact content =>
        ih _ _ _)

/-! ## The whole graph -/

/-- The lists and counters of a job whose graph is well formed. -/
structure ObjectGraph (root : Digest 64) (job : ScanJob) (usage : ExtractionUsage) : Prop where
  objects : job.derivedObjects.length = usage.childrenMaterialized
  relationships : job.relationships.length = usage.childrenMaterialized
  edges : List.Forall₂ Matches job.derivedObjects job.relationships
  parents : ∀ before object after, job.derivedObjects = before ++ object :: after →
    ParentIs 0 root before object
  deepest : usage.maxDepthReached = deepest job.derivedObjects

/-- An extraction that no exception ends leaves a graph from which the ancestry of every derived
object can be read. -/
theorem process_objectGraph (env : ExtractEnv) (scans : Scans ω) (source : Bytes)
    (s : ExtractState ω) (hobjects : s.job.derivedObjects = [])
    (hrelationships : s.job.relationships = [])
    (hreturns : Returns (processBody env scans source) (begin source s)) :
    ObjectGraph s.job.inputArtifact.hashes.sha256 (final (process env scans source) s).job
      (final (process env scans source) s).usage := by
  obtain ⟨⟨⟩, t, hbody⟩ := returns_iff.1 hreturns
  rw [final_of_ok (process_of_ok hbody)]
  have hR := grafted_respected (ω := ω) 0 s.job.inputArtifact.hashes.sha256
  have hconclude : Carries (Grafted 0 s.job.inputArtifact.hashes.sha256)
      (conclude : Extract ω Unit) :=
    Ends.get_bind fun _ => Ends.ite (fun _ => carries_perform hR rfl) fun _ =>
      Ends.pure hR.composes _
  obtain ⟨⟨⟩, u, hobject, hend⟩ := bind_eq_ok.1 (show (processObject env scans (recursionFuel env) 0
    s.job.inputArtifact source >>= fun _ => conclude) (begin source s) = .ok () t from hbody)
  have hgrafted := (Ends.of_ok (processObject_grafts _ _ _ _) hobject).trans
    (hconclude.of_ok hend)
  obtain ⟨found, edges, hforest, hmatches, hderived, hrelated, hmaterialized, hdeepest⟩ := hgrafted
  have hderived : t.job.derivedObjects = found := by
    rw [hderived]
    simp [begin, hobjects]
  have hrelated : t.job.relationships = edges := by
    rw [hrelated]
    simp [begin, hrelationships]
  have hmaterialized : t.usage.childrenMaterialized = found.length := by
    rw [hmaterialized]
    simp [begin, ExtractionUsage.zero]
  refine ⟨?_, ?_, ?_, ?_, ?_⟩
  · exact (congrArg List.length hderived).trans hmaterialized.symm
  · rw [removed, hrelated, hmaterialized]
    exact hmatches.length_eq.symm
  · rw [removed, hrelated, hderived]
    exact hmatches
  · intro before object after hsplit
    exact hforest.parentIs (hderived.symm.trans hsplit)
  · rw [removed, hderived]
    exact hdeepest.trans (Nat.zero_max _)

/-- The letter A, compressed by gzip. -/
def gzipLetter : Bytes :=
  [31, 139, 8, 0, 0, 0, 0, 0, 0, 3, 115, 4, 0, 139, 158, 217, 211, 1, 0, 0, 0]

/-- A ZIP archive of that file and of another one with the letter B. -/
def gzipZip : Bytes :=
  [80, 75, 3, 4, 20, 0, 0, 0, 0, 0, 0, 0, 33, 0, 6, 99, 28, 253, 21, 0, 0, 0, 21, 0, 0, 0, 4, 0, 0,
   0, 97, 46, 103, 122, 31, 139, 8, 0, 0, 0, 0, 0, 0, 3, 115, 4, 0, 139, 158, 217, 211, 1, 0, 0, 0,
   80, 75, 3, 4, 20, 0, 0, 0, 0, 0, 0, 0, 33, 0, 49, 207, 208, 74, 1, 0, 0, 0, 1, 0, 0, 0, 1, 0, 0,
   0, 98, 66, 80, 75, 1, 2, 20, 3, 20, 0, 0, 0, 0, 0, 0, 0, 33, 0, 6, 99, 28, 253, 21, 0, 0, 0, 21,
   0, 0, 0, 4, 0, 0, 0, 0, 0, 0, 0, 0, 0, 0, 0, 128, 1, 0, 0, 0, 0, 97, 46, 103, 122, 80, 75, 1, 2,
   20, 3, 20, 0, 0, 0, 0, 0, 0, 0, 33, 0, 49, 207, 208, 74, 1, 0, 0, 0, 1, 0, 0, 0, 1, 0, 0, 0, 0,
   0, 0, 0, 0, 0, 0, 0, 128, 1, 55, 0, 0, 0, 98, 80, 75, 5, 6, 0, 0, 0, 0, 2, 0, 2, 0, 97, 0, 0, 0,
   87, 0, 0, 0, 0, 0]

/-- Decoders for them. -/
def gzipZipEnv : ExtractEnv :=
  { ExtractEnv.plain with
    isZipfile := fun content => .ok (content = gzipZip)
    zipInfos := fun _ => .ok [⟨PyStr.ofString "a.gz", 0, 0x1800000, 21⟩,
      ⟨PyStr.ofString "b", 0, 0x1800000, 1⟩]
    zipOpen := fun _ index => .ok (.ofBytes (if index = 0 then gzipLetter else [0x42]))
    openCompressed := fun _ _ => .ok (.ofBytes [0x41]) }

/-- Two files in the archive, and one in the first of them. -/
theorem process_objectGraph_archive :
    let s := ExtractState.fresh (containerJob gzipZip) ()
    (final (process gzipZipEnv .silent gzipZip) s).job.derivedObjects.map
        (fun object => object.depth) = [1, 2, 1] ∧
      ObjectGraph s.job.inputArtifact.hashes.sha256
        (final (process gzipZipEnv .silent gzipZip) s).job
        (final (process gzipZipEnv .silent gzipZip) s).usage :=
  ⟨by decide +kernel, process_objectGraph gzipZipEnv .silent gzipZip _ rfl rfl
    (show raised _ _ = none by decide +kernel)⟩

end ContainerAnalyzer

end AVBox
