import AVBox.Analyzers.Visits
import AVBox.Lib.Preorder

/-!
# The cap on the children of one object

Every handler but one takes no more members than `max_children_per_object`, and says so when there
are more.  `_process_partitioned_disk` takes all that `parse_partition_table` returns, which has a
limit of its own.  `children_capped` holds of the graphs in which no partition table is larger than
the cap, and in `twoPartitions` a disk has two children under a cap of one.
-/

namespace AVBox

open Program Transitions

namespace ContainerAnalyzer

variable {ω : Type} {env : ExtractEnv} {scans : Scans ω}

/-! ## The members of one object -/

/-- If the object is taken for a partitioned disk, its table is within the cap. -/
def PartitionsFit (env : ExtractEnv) (content : Bytes) : Prop :=
  documentOf env content = none → ∀ table,
    Partitions.parse content env.budget.maxPartitionsPerDisk = .ok (some table) →
      table.partitions.length ≤ env.budget.maxChildrenPerObject

lemma length_flatMap_toList_le {α β : Type} (items : List α) (f : α → Option β) :
    (items.flatMap fun item => (f item).toList).length ≤ items.length := by
  rw [← List.filterMap_eq_flatMap_toList]
  exact List.length_filterMap_le f items

lemma length_capped_le {α : Type} (items : List α) (candidate : α → ℕ → Option Member) :
    (capped env items candidate).length ≤ env.budget.maxChildrenPerObject := by
  refine (length_flatMap_toList_le _ _).trans ?_
  rw [List.length_zipIdx]
  exact List.length_take_le _ _

section Members

variable {content : Bytes} (hcap : 1 ≤ env.budget.maxChildrenPerObject)

include hcap

lemma length_compressedMembers_le (kind : Kind) :
    (compressedMembers env content kind).length ≤ env.budget.maxChildrenPerObject := by
  unfold compressedMembers
  split
  · exact hcap
  · exact Nat.zero_le _

/-- One case for each kind of container. -/
lemma length_containerMembers_le (hfit : PartitionsFit env content)
    (hdocument : documentOf env content = none) (kind : Kind) :
    (containerMembers env content kind).length ≤ env.budget.maxChildrenPerObject := by
  have hexternal : ∀ kind,
      (externalMembers env content kind).length ≤ env.budget.maxChildrenPerObject := by
    intro kind
    unfold externalMembers
    split
    · exact length_capped_le _ _
    · exact Nat.zero_le _
  cases kind with
  | corruptZip => exact Nat.zero_le _
  | zip =>
      show (zipMembers env content).length ≤ _
      unfold zipMembers
      split
      · exact length_capped_le _ _
      · exact Nat.zero_le _
  | tar =>
      show (tarMembers env content).length ≤ _
      unfold tarMembers
      split
      · exact length_capped_le _ _
      · exact Nat.zero_le _
  | fat | amigaAdf =>
      show (diskMembers env content).length ≤ _
      unfold diskMembers
      split
      · exact length_capped_le _ _
      · exact Nat.zero_le _
  | partitionedDisk =>
      show (partitionMembers env content).length ≤ _
      unfold partitionMembers
      split
      next table htable =>
        exact (length_flatMap_toList_le _ _).trans (hfit hdocument table htable)
      · exact Nat.zero_le _
  | gzip | bzip2 | xz => exact length_compressedMembers_le hcap _
  | lha | iso9660 | sevenZip | cab | arj => exact hexternal _

lemma length_objectMembers_le (hfit : PartitionsFit env content) :
    (objectMembers env content).length ≤ env.budget.maxChildrenPerObject := by
  unfold objectMembers
  split
  · exact length_capped_le _ _
  next hdocument =>
    split
    · exact length_containerMembers_le hcap hfit hdocument _
    · exact Nat.zero_le _

end Members

/-! ## The shape of the graph -/

/-- An object that is opened, and is then within the cap. -/
def WithinCap (env : ExtractEnv) (object : ℕ × Bytes) : Prop :=
  object.1 < env.budget.maxRecursionDepth → PartitionsFit env object.2

/-- A part of an extraction adds a forest below a level, with at most so many roots. -/
def Adds (env : ExtractEnv) (given : Prop) (depth count : ℕ) (s t : ExtractState ω) : Prop :=
  ∃ found, t.trace.objects = s.trace.objects ++ found ∧
    (given → (∀ object ∈ found, WithinCap env object) → ∃ roots ≤ count,
      Branching Prod.fst env.budget.maxChildrenPerObject depth roots found)

section Adds

variable {given : Prop} {depth count : ℕ} {s t u : ExtractState ω}

lemma Adds.of_objects (h : t.trace.objects = s.trace.objects) : Adds env given depth count s t :=
  ⟨[], h.trans (List.append_nil _).symm, fun _ _ => ⟨0, Nat.zero_le _, .nil _⟩⟩

lemma Adds.mono {count' : ℕ} (h : Adds env given depth count s t)
    (hcount : given → count ≤ count') : Adds env given depth count' s t := by
  obtain ⟨found, hfound, hadds⟩ := h
  refine ⟨found, hfound, fun hgiven hfits => ?_⟩
  obtain ⟨roots, hroots, hshape⟩ := hadds hgiven hfits
  exact ⟨roots, hroots.trans (hcount hgiven), hshape⟩

lemma Adds.trans {count' : ℕ} (h : Adds env given depth count s t)
    (h' : Adds env given depth count' t u) : Adds env given depth (count + count') s u := by
  obtain ⟨found, hfound, hadds⟩ := h
  obtain ⟨found', hfound', hadds'⟩ := h'
  refine ⟨found ++ found', by rw [hfound', hfound, List.append_assoc], fun hgiven hfits => ?_⟩
  obtain ⟨hfits, hfits'⟩ := List.forall_mem_append.1 hfits
  obtain ⟨roots, hroots, hshape⟩ := hadds hgiven hfits
  obtain ⟨roots', hroots', hshape'⟩ := hadds' hgiven hfits'
  exact ⟨roots + roots', Nat.add_le_add hroots hroots', hshape.append hshape'⟩

/-- A child joins the graph, and what is below it follows. -/
lemma Adds.recorded {parent artifact : InputArtifact} {member : Member} {content : Bytes}
    {result : ScanJob}
    (h : Adds env (WithinCap env (depth + 1, content)) (depth + 1) env.budget.maxChildrenPerObject
      (recorded parent member (depth + 1) artifact content result s) t) :
    Adds env given depth 1 s t := by
  obtain ⟨found, hfound, hadds⟩ := h
  refine ⟨(depth + 1, content) :: found, ?_, fun _ hfits => ?_⟩
  · rw [hfound, List.append_cons]
    rfl
  · obtain ⟨hfits, hbelow⟩ := List.forall_mem_cons.1 hfits
    obtain ⟨roots, hroots, hshape⟩ := hadds hfits hbelow
    refine ⟨1, Nat.le_refl 1, ?_⟩
    have hnode : Branching Prod.fst env.budget.maxChildrenPerObject depth 1
        ((depth + 1, content) :: (found ++ [])) := .node rfl hroots hshape (.nil depth)
    rwa [List.append_nil] at hnode

/-- A handler adds at most one child for each member it visits. -/
lemma run_adds {visit : Visit ω} {trace : List (ExtractState ω × Action)}
    (hvisit : ∀ member s, Adds env given depth 1 s (final (visit member) s))
    (hrun : Run (Handles visit) s trace t) :
    Adds env given depth (visited trace).length s t := by
  induction hrun with
  | nil => exact .of_objects rfl
  | @snoc trace u v action run step ih =>
      rw [visited_append, List.length_append]
      refine ih.trans ?_
      cases action with
      | write write =>
          obtain ⟨hminor, rfl⟩ := step
          exact .of_objects (objects_apply_of_minor hminor u)
      | visit member =>
          obtain rfl : v = final (visit member) u := step
          exact hvisit member u

lemma childOf_adds {recurse : Recurse ω} {source : Source}
    (hrecurse : ∀ artifact content s, Adds env (WithinCap env (source.depth + 1, content))
      (source.depth + 1) env.budget.maxChildrenPerObject s
        (final (recurse (source.depth + 1) artifact content) s)) (member : Member) :
    Adds env given source.depth 1 s (final (childOf env scans recurse source member) s) := by
  rcases (childOf_split env scans recurse source member s).final_cases with
    ⟨aside, -⟩ | ⟨artifact, content, result, u, before, -, hfinal⟩
  · exact .of_objects aside.sameGraph.1
  · rw [hfinal]
    have hbefore : Adds env given source.depth 0 s u := .of_objects before.sameGraph.1
    have hbelow : ∀ s, Adds env (WithinCap env (source.depth + 1, content)) (source.depth + 1)
        env.budget.maxChildrenPerObject s
          (final (below env recurse (source.depth + 1) artifact content) s) := by
      intro s
      unfold below
      split
      · exact .of_objects (deepest_takes.asides s).sameGraph.1
      · exact hrecurse artifact content s
    exact (hbefore.trans (.recorded (hbelow _))).mono fun _ => Nat.le_of_eq (Nat.zero_add 1)

variable (hcap : 1 ≤ env.budget.maxChildrenPerObject)

include hcap

lemma objectBody_adds {recurse : Recurse ω} {source : Source}
    (hrecurse : ∀ artifact content s, Adds env (WithinCap env (source.depth + 1, content))
      (source.depth + 1) env.budget.maxChildrenPerObject s
        (final (recurse (source.depth + 1) artifact content) s)) (s : ExtractState ω) :
    Adds env (WithinCap env (source.depth, source.content)) source.depth
      env.budget.maxChildrenPerObject s (final (objectBody env scans recurse source) s) := by
  by_cases hdepth : source.depth < env.budget.maxRecursionDepth
  · obtain ⟨trace, hrun, hvisited⟩ := objectBody_takes env scans recurse source s
    refine (run_adds (fun member s => childOf_adds hrecurse member) hrun).mono fun hfits => ?_
    exact hvisited.length_le.trans (length_objectMembers_le hcap (hfits hdepth))
  · refine .of_objects (Asides.sameGraph ?_).1
    exact (Takes.rules.objectBody_of_deep (Nat.le_of_not_lt hdepth)).asides s

/-- By induction on the fuel: what is below an object is a forest within the cap. -/
lemma processObject_adds (fuel depth : ℕ) (parent : InputArtifact) (content : Bytes)
    (s : ExtractState ω) :
    Adds env (WithinCap env (depth, content)) depth env.budget.maxChildrenPerObject s
      (final (processObject env scans fuel depth parent content) s) := by
  induction fuel generalizing depth parent content s with
  | zero => exact .of_objects rfl
  | succ fuel ih =>
      have hbody := @objectBody_adds ω env scans hcap (processObject env scans fuel)
        ⟨parent, depth, content⟩
      exact hbody (fun artifact content s => ih _ _ _ _) s

end Adds

/-! ## What is said of the members beyond the cap -/

/-- Events and errors stay. -/
structure Reports (s t : ExtractState ω) : Prop where
  events : s.usage.limitEvents ⊆ t.usage.limitEvents
  errors : s.job.errors ⊆ t.job.errors

/-- What says that members were left out. -/
def CapNoted (s : ExtractState ω) : Prop :=
  "CHILD_COUNT_LIMIT" ∈ s.usage.limitEvents ∨ "EXTRACTION_TIME_LIMIT" ∈ s.usage.limitEvents ∨
    s!"partition-table: {Partitions.cutOff}" ∈ s.job.errors

/-- A container has more members than the cap: more rows in its listing, or more partitions under
some maximum. -/
def Overfull (env : ExtractEnv) (content : Bytes) (kind : Kind) : Prop :=
  match kind with
  | .zip => ∃ infos, env.zipInfos content = .ok infos ∧
      env.budget.maxChildrenPerObject < infos.length
  | .tar => ∃ infos, env.tarInfos content = .ok infos ∧
      env.budget.maxChildrenPerObject < infos.length
  | .fat | .amigaAdf => ∃ image, env.parseDiskImage content = .ok (some image) ∧
      env.budget.maxChildrenPerObject < image.entries.length
  | .partitionedDisk => ∃ maximum table, Partitions.parse content maximum = .ok (some table) ∧
      env.budget.maxChildrenPerObject < table.partitions.length
  | .corruptZip | .gzip | .bzip2 | .xz => False
  | kind => ∃ rows, env.listArchive kind content = .members (.ok rows) ∧
      env.budget.maxChildrenPerObject < rows.length

/-- What `parse_document` makes of an object, where it is small enough to be parsed. -/
def parsed (env : ExtractEnv) (content : Bytes) : Except Exc (Option ParsedDocument) :=
  if content.length ≤ env.maxDocumentParserBytes then env.parseDocument content else .ok none

/-- An object has more members than the cap, and what it is can be found out. -/
inductive Exceeds (env : ExtractEnv) (content : Bytes) : Prop
  | document (document : ParsedDocument) (read : parsed env content = .ok (some document))
      (many : env.budget.maxChildrenPerObject < document.children.length)
  | container (kind : Kind)
      (read : parsed env content = .ok none ∨
        ∃ exc, parsed env content = .error exc ∧ exc.family ∈ DecodeSite.guards .document)
      (recognised : kindOf env content = .ok (some kind)) (many : Overfull env content kind)

section Notes

variable {α β : Type} {visit : Visit ω} {content : Bytes}

lemma CapNoted.mono {s t : ExtractState ω} (h : CapNoted s) (hreports : Reports s t) :
    CapNoted t := by
  rcases h with hcount | htime | htable
  · exact .inl (hreports.events hcount)
  · exact .inr (.inl (hreports.events htime))
  · exact .inr (.inr (hreports.errors htable))

lemma reports_apply (s : ExtractState ω) (write : Write) : Reports s (write.apply s) := by
  cases write with
  | event name => exact ⟨subset_addEvent _ _, fun _ h => h⟩
  | errors texts => exact ⟨fun _ h => h, List.subset_append_left _ _⟩
  | _ => exact ⟨fun _ h => h, fun _ h => h⟩

lemma Reports.refl (s : ExtractState ω) : Reports s s := ⟨fun _ h => h, fun _ h => h⟩

lemma Reports.trans {s t u : ExtractState ω} (h : Reports s t) (h' : Reports t u) : Reports s u :=
  ⟨List.Subset.trans h.events h'.events, List.Subset.trans h.errors h'.errors⟩

lemma reports_respected : Respected (Reports (ω := ω)) where
  refl := Reports.refl
  trans _ _ _ := Reports.trans
  minor write _ s := reports_apply s write

/-- However a program ends, it has noted that members were left out. -/
def Notes (x : Extract ω α) : Prop := ∀ s, CapNoted (final x s)

namespace Notes

lemma bind_left {x : Extract ω α} {f : α → Extract ω β} (hx : Notes x)
    (hf : ∀ a, Moves Reports (f a)) : Notes (x >>= f) := by
  intro s
  have hnoted := hx s
  cases hrun : x s with
  | ok a t =>
      rw [final_of_ok hrun] at hnoted
      rw [final_bind_of_ok hrun]
      exact hnoted.mono (hf a t)
  | error exc t =>
      rw [final_of_error hrun] at hnoted
      rw [final_bind_of_error hrun]
      exact hnoted

/-- A first program that returns a known value. -/
lemma bind_right {x : Extract ω α} {f : α → Extract ω β} {a : α}
    (hx : ∀ s, ∃ t, x s = .ok a t) (hf : Notes (f a)) : Notes (x >>= f) := by
  intro s
  obtain ⟨t, hrun⟩ := hx s
  rw [final_bind_of_ok hrun]
  exact hf t

lemma limit_childCount : Notes (limit "CHILD_COUNT_LIMIT" : Extract ω Unit) :=
  fun _ => .inl (mem_addEvent _ _)

lemma limit_time : Notes (limit "EXTRACTION_TIME_LIMIT" : Extract ω Unit) :=
  fun _ => .inr (.inl (mem_addEvent _ _))

end Notes

section Visit

variable (hvisit : ∀ member, Moves Reports (visit member))

include hvisit

lemma eachMember_notes {γ : Type} {items : List γ} {body : γ → ℕ → Extract ω Unit}
    {candidate : γ → ℕ → Option Member}
    (h : ∀ item index, Takes visit (candidate item index).toList (body item index))
    (hlong : env.budget.maxChildrenPerObject < items.length) :
    Notes (eachMember env items body) := by
  rw [eachMember_eq]
  refine Notes.bind_left ?_ fun _ => ?_
  · rw [limitChildren, if_pos hlong]
    exact Notes.limit_childCount
  · have htakes : Takes visit (capped env items candidate) (forEach
        (fun item => memberPass env (body item.1 item.2))
        (items.take env.budget.maxChildrenPerObject).zipIdx) :=
      Takes.rules.forEach fun item _ => Takes.rules.memberPass (h item.1 item.2)
    exact htakes.moves reports_respected fun member _ => hvisit member

lemma processExternalArchive_notes {kind : Kind} {rows : List ExternalMember}
    (hlisting : env.listArchive kind content = .members (.ok rows))
    (hlong : env.budget.maxChildrenPerObject < rows.length) :
    Notes (processExternalArchive env visit kind content) := by
  unfold processExternalArchive
  rw [hlisting]
  exact Notes.bind_right (fun s => ⟨s, rfl⟩)
    (eachMember_notes hvisit ((handlerRules_takes env visit).externalMember kind) hlong)

lemma processDiskImage_notes {image : DiskImage}
    (himage : env.parseDiskImage content = .ok (some image))
    (hlong : env.budget.maxChildrenPerObject < image.entries.length) :
    Notes (processDiskImage env visit content) := by
  unfold processDiskImage
  rw [himage]
  exact Notes.bind_right (fun s => ⟨s, rfl⟩)
    (eachMember_notes hvisit (fun entry _ => (handlerRules_takes env visit).diskEntry entry) hlong)

/-- A table within the cap of a disk with more partitions says that it was cut off. -/
lemma processPartitionedDisk_notes {maximum : ℕ} {full : PartitionTable}
    (hfull : Partitions.parse content maximum = .ok (some full))
    (hlong : env.budget.maxChildrenPerObject < full.partitions.length)
    (hfit : ∀ table, Partitions.parse content env.budget.maxPartitionsPerDisk = .ok (some table) →
      table.partitions.length ≤ env.budget.maxChildrenPerObject) :
    Notes (processPartitionedDisk env visit content) := by
  obtain ⟨table, htable, hlength⟩ :=
    @Partitions.parse_length_le content env.budget.maxPartitionsPerDisk _ _ hfull
  have hcut : Partitions.cutOff ∈ table.errors := by
    by_contra hcut
    have hle := hlength hcut
    have hfits := hfit table htable
    omega
  unfold processPartitionedDisk
  rw [htable]
  refine Notes.bind_right (fun s => ⟨s, rfl⟩) (Notes.bind_left ?_ fun _ => ?_)
  · rw [reportTable, if_neg (List.ne_nil_of_mem hcut)]
    refine Notes.bind_left (fun s => .inr (.inr ?_)) fun _ => Moves.modify fun s => ?_
    · exact List.mem_append_right _ (List.mem_map_of_mem hcut)
    · exact reports_apply s _
  · have htakes := Takes.rules.forEach fun partition (hlisted : partition ∈ table.partitions) =>
      (handlerRules_takes env visit).partition htable hlisted
    exact htakes.moves reports_respected fun member _ => hvisit member

/-- One case for each kind of container. -/
lemma processContainer_notes {kind : Kind} (hover : Overfull env content kind)
    (hfit : ∀ table, Partitions.parse content env.budget.maxPartitionsPerDisk = .ok (some table) →
      table.partitions.length ≤ env.budget.maxChildrenPerObject) :
    Notes (processContainer env visit content kind) := by
  cases kind with
  | corruptZip | gzip | bzip2 | xz => exact hover.elim
  | zip =>
      obtain ⟨infos, hinfos, hlong⟩ := hover
      show Notes (processZip env visit content)
      unfold processZip
      rw [hinfos]
      exact Notes.bind_right (fun s => ⟨s, rfl⟩)
        (eachMember_notes hvisit (handlerRules_takes env visit).zipMember hlong)
  | tar =>
      obtain ⟨infos, hinfos, hlong⟩ := hover
      show Notes (processTar env visit content)
      unfold processTar
      rw [hinfos]
      exact Notes.bind_right (fun s => ⟨s, rfl⟩)
        (eachMember_notes hvisit (handlerRules_takes env visit).tarMember hlong)
  | fat | amigaAdf =>
      obtain ⟨image, himage, hlong⟩ := hover
      exact processDiskImage_notes hvisit himage hlong
  | partitionedDisk =>
      obtain ⟨maximum, full, hfull, hlong⟩ := hover
      exact processPartitionedDisk_notes hvisit hfull hlong hfit
  | lha | iso9660 | sevenZip | cab | arj =>
      obtain ⟨rows, hrows, hlong⟩ := hover
      exact processExternalArchive_notes hvisit hrows hlong

end Visit

lemma readDocument_eq (env : ExtractEnv) (content : Bytes) :
    (readDocument env content : Extract ω (Option ParsedDocument)) =
      guarded .document (parsed env content) refuseDocument := rfl

lemma documentOf_of_parsed
    (h : parsed env content = .ok none ∨ ∃ exc, parsed env content = .error exc) :
    documentOf env content = none := by
  unfold documentOf
  unfold parsed at h
  rcases h with hnone | ⟨exc, herror⟩
  · rw [hnone]
  · rw [herror]

/-- An object with members beyond the cap notes that they are left out. -/
lemma objectBody_notes {recurse : Recurse ω} {source : Source}
    (hvisit : ∀ member, Moves Reports (childOf env scans recurse source member))
    (hdepth : source.depth < env.budget.maxRecursionDepth)
    (hfit : PartitionsFit env source.content) (hexceeds : Exceeds env source.content) :
    Notes (objectBody env scans recurse source) := by
  intro s
  unfold objectBody
  rw [final_bind_of_ok (expired_apply s)]
  split
  · exact Notes.limit_time _
  · rw [if_neg (Nat.not_le.2 hdepth)]
    cases hexceeds with
    | document document read many =>
        rw [readDocument_eq, read]
        have hchildren := @eachMember_notes ω env _ hvisit _ document.children _
          (fun item index => some ⟨.ofBytes item.data, item.name, index, .embeddedFileOf⟩)
          (fun item index => .visits (List.mem_singleton_self _)) many
        refine Notes.bind_right (fun s => ⟨s, rfl⟩) (Notes.bind_right (a := ()) (fun s => ?_)
          hchildren) _
        unfold takePartial
        rw [get_bind_apply]
        cases document.partially with
        | none => exact ⟨s, rfl⟩
        | some state =>
            dsimp only
            split
            · exact ⟨_, rfl⟩
            · exact ⟨s, rfl⟩
    | container kind read recognised many =>
        have hdocument : documentOf env source.content = none :=
          documentOf_of_parsed (read.imp_right (Exists.imp fun _ => And.left))
        have hnotes := processContainer_notes hvisit many (hfit hdocument)
        rw [recognised]
        rcases read with hnone | ⟨exc, herror, hguard⟩
        · rw [readDocument_eq, hnone]
          exact Notes.bind_right (fun s => ⟨s, rfl⟩)
            (Notes.bind_right (a := some kind) (fun s => ⟨s, rfl⟩) hnotes) _
        · rw [readDocument_eq, herror]
          refine Notes.bind_right (a := none) (fun s => ?_)
            (Notes.bind_right (a := some kind) (fun s => ⟨s, rfl⟩) hnotes) _
          rw [guarded_error, if_pos hguard]
          exact ⟨_, rfl⟩

/-- What is noted of an object of the graph. -/
def Accounted (env : ExtractEnv) (t : ExtractState ω) (object : ℕ × Bytes) : Prop :=
  object.1 < env.budget.maxRecursionDepth → PartitionsFit env object.2 → Exceeds env object.2 →
    CapNoted t

lemma persists_accounted : Persists (Reports (ω := ω)) (Accounted env) where
  refl := Reports.refl
  trans _ _ _ := Reports.trans
  write := reports_apply
  scan _ _ := ⟨fun _ h => h, fun _ h => h⟩
  along _ _ _ hreports h hdepth hfit hexceeds := (h hdepth hfit hexceeds).mono hreports

lemma childOf_notes {recurse : Recurse ω} {source : Source}
    (hrecurse : ∀ artifact content, Moves (fun s t => Settles Reports (Accounted env) s t ∧
      Accounted env t (source.depth + 1, content)) (recurse (source.depth + 1) artifact content))
    (member : Member) :
    Moves (Settles Reports (Accounted env)) (childOf env scans recurse source member) := by
  intro s
  rcases (childOf_split env scans recurse source member s).final_cases with
    ⟨aside, -⟩ | ⟨artifact, content, result, u, before, -, hfinal⟩
  · exact .of_asides persists_accounted aside
  · rw [hfinal]
    refine (settles_respected persists_accounted).trans _ _ _
      (.of_asides persists_accounted before) ?_
    have hbelow : ∀ s, Settles Reports (Accounted env) s
          (final (below env recurse (source.depth + 1) artifact content) s) ∧
        Accounted env (final (below env recurse (source.depth + 1) artifact content) s)
          (source.depth + 1, content) := by
      intro s
      unfold below
      split
      next hdeep =>
        exact ⟨.of_asides persists_accounted (deepest_takes.asides s),
          fun hdepth => absurd hdepth (Nat.not_lt.2 hdeep)⟩
      · exact hrecurse artifact content s
    obtain ⟨hsettles, hchild⟩ := hbelow
      (recorded source.parent member (source.depth + 1) artifact content result u)
    exact hsettles.recorded persists_accounted hchild

/-- By induction on the fuel, which is enough to come to the greatest depth: an object and what is
below it are noted. -/
lemma processObject_notes (fuel depth : ℕ) (hfuel : env.budget.maxRecursionDepth ≤ depth + fuel)
    (parent : InputArtifact) (content : Bytes) :
    Moves (fun s t => Settles Reports (Accounted env) s t ∧ Accounted env t (depth, content))
      (processObject env scans fuel depth parent content) := by
  induction fuel generalizing depth parent content with
  | zero =>
      intro s
      exact ⟨.of_objects (reports_apply s (.failed .stack recursionError)) rfl,
        fun hdepth => absurd hdepth (Nat.not_lt.2 hfuel)⟩
  | succ fuel ih =>
      have hvisit : ∀ member, Moves (Settles Reports (Accounted env))
          (childOf env scans (processObject env scans fuel) ⟨parent, depth, content⟩ member) :=
        childOf_notes fun artifact content => ih _ (by dsimp only; omega) _ _
      intro s
      refine ⟨(objectBody_takes env scans (processObject env scans fuel)
        ⟨parent, depth, content⟩).moves (settles_respected persists_accounted)
          (fun member _ => hvisit member) s, fun hdepth hfit hexceeds => ?_⟩
      exact objectBody_notes (fun member s => (hvisit member s).grows) hdepth hfit hexceeds s

end Notes

/-! ## Every extraction -/

/-- In an extraction in which no table of a partitioned disk is larger than the cap, at no moment
has an object more children than the cap, no object calls `_child` more often, and of an object
with more members it is said that some were left out. -/
theorem children_capped (env : ExtractEnv) (scans : Scans ω) (source : Bytes) (s : ExtractState ω)
    (hcap : 1 ≤ env.budget.maxChildrenPerObject)
    (hfits : ∀ object ∈ (final (process env scans source) s).trace.objects, WithinCap env object) :
    (∀ before object after,
        before ++ object :: after <+: (final (process env scans source) s).trace.objects →
          directChildren Prod.fst object after ≤ env.budget.maxChildrenPerObject) ∧
      (∀ object ∈ (final (process env scans source) s).trace.objects,
        object.1 < env.budget.maxRecursionDepth → ∀ recurse parent u, ∃ trace,
          Run (Handles (childOf env scans recurse ⟨parent, object.1, object.2⟩)) u trace
              (final (objectBody env scans recurse ⟨parent, object.1, object.2⟩) u) ∧
            (visited trace).length ≤ env.budget.maxChildrenPerObject) ∧
      ∀ object ∈ (final (process env scans source) s).trace.objects,
        object.1 < env.budget.maxRecursionDepth → Exceeds env object.2 →
          CapNoted (final (process env scans source) s) := by
  obtain ⟨t, hasides, hfinal⟩ := process_final asides_respected env scans source s
  obtain ⟨found, hfound, hadds⟩ := @processObject_adds ω env scans hcap (recursionFuel env) 0
    s.job.inputArtifact source (begin source s)
  obtain ⟨hsettles, hroot⟩ := @processObject_notes ω env scans (recursionFuel env) 0
    (by rw [recursionFuel]; omega) s.job.inputArtifact source (begin source s)
  have hobjects : (final (process env scans source) s).trace.objects = (0, source) :: found := by
    rw [hfinal]
    exact hasides.sameGraph.1.trans hfound
  refine ⟨fun before object after hprefix => ?_, fun object hobject hdepth recurse parent u => ?_,
    fun object hobject hdepth hexceeds => ?_⟩
  · rw [hobjects] at hprefix hfits
    obtain ⟨hsource, hbelow⟩ := List.forall_mem_cons.1 hfits
    obtain ⟨roots, hroots, hshape⟩ := hadds hsource hbelow
    exact hshape.directChildren_le_of_prefix rfl hroots hprefix
  · obtain ⟨trace, hrun, hvisited⟩ :=
      objectBody_takes env scans recurse ⟨parent, object.1, object.2⟩ u
    exact ⟨trace, hrun, hvisited.length_le.trans
      (length_objectMembers_le hcap (hfits object hobject hdepth))⟩
  · have hfit := hfits object hobject hdepth
    rw [hobjects] at hobject
    have haccounted : Accounted env t object := by
      have hpersists := @persists_accounted ω env
      refine hpersists.along _ _ _ (hpersists.asides hasides) ?_
      rcases List.mem_cons.1 hobject with rfl | hmem
      · exact hroot
      · obtain ⟨found', hfound', hall⟩ := hsettles.objects
        rw [hfound] at hfound'
        exact hall object (List.append_cancel_left hfound' ▸ hmem)
    rw [hfinal]
    exact haccounted hdepth hfit hexceeds

/-- A sector of zeros. -/
def emptySector : Bytes := List.replicate 512 0

/-- An MBR with two partitions of one sector each. -/
def twoPartitions : Bytes :=
  List.replicate 446 0 ++ [0, 0, 0, 0, 0x83, 0, 0, 0, 1, 0, 0, 0, 1, 0, 0, 0] ++
    [0, 0, 0, 0, 0x83, 0, 0, 0, 2, 0, 0, 0, 1, 0, 0, 0] ++ List.replicate 32 0 ++ [0x55, 0xAA] ++
      emptySector ++ emptySector

/-- A server that allows one child for each object, and so many partitions for a disk. -/
def oneChildEnv (maxPartitionsPerDisk : ℕ) : ExtractEnv :=
  { ExtractEnv.plain with
    budget :=
      { ExtractionBudget.default with
        maxChildrenPerObject := 1
        maxPartitionsPerDisk := maxPartitionsPerDisk } }

/-- What a run on that disk leaves. -/
def oneChildRun (maxPartitionsPerDisk : ℕ) : ExtractState Unit :=
  final (process (oneChildEnv maxPartitionsPerDisk) .silent twoPartitions)
    (.fresh (containerJob twoPartitions) ())

/-- The disk has two partitions. -/
lemma exists_table_twoPartitions : ∃ table,
    Partitions.parse twoPartitions 2 = .ok (some table) ∧ 1 < table.partitions.length := by
  have hlong : (Partitions.parse twoPartitions 2).toOption.join.any
      (fun table => 1 < table.partitions.length) = true := by decide +kernel
  cases hparse : Partitions.parse twoPartitions 2 with
  | error exc =>
      rw [hparse] at hlong
      cases hlong
  | ok table =>
      rw [hparse] at hlong
      cases table with
      | none => cases hlong
      | some table => exact ⟨table, rfl, of_decide_eq_true hlong⟩

theorem children_capped_cutOff :
    directChildren Prod.fst (0, twoPartitions) [(1, emptySector)] ≤ 1 ∧
      CapNoted (oneChildRun 1) := by
  have hobjects : (oneChildRun 1).trace.objects = [(0, twoPartitions), (1, emptySector)] := by
    decide +kernel
  have hkind : kindOf (oneChildEnv 1) twoPartitions = .ok (some .partitionedDisk) := by
    decide +kernel
  obtain ⟨hchildren, -, hnoted⟩ := children_capped (oneChildEnv 1) .silent twoPartitions
    (.fresh (containerJob twoPartitions) ()) (Nat.le_refl 1)
    fun _ _ _ _ table htable => (Partitions.parse_table htable).1
  unfold oneChildRun at hobjects ⊢
  rw [hobjects] at hchildren hnoted
  exact ⟨hchildren [] (0, twoPartitions) [(1, emptySector)] List.prefix_rfl,
    hnoted (0, twoPartitions) List.mem_cons_self (by decide : 0 < 3)
      (.container .partitionedDisk (.inl (ite_self _)) hkind ⟨2, exists_table_twoPartitions⟩)⟩

/-- Under the usual maximum of partitions both are materialised. -/
theorem two_partitions_exceed_cap :
    ¬∀ before object after, before ++ object :: after <+: (oneChildRun 32).trace.objects →
      directChildren Prod.fst object after ≤ (oneChildEnv 32).budget.maxChildrenPerObject := by
  intro h
  have hobjects : (oneChildRun 32).trace.objects =
      [(0, twoPartitions), (1, emptySector), (1, emptySector)] := by decide +kernel
  have htwo : directChildren Prod.fst (0, twoPartitions) [(1, emptySector), (1, emptySector)] = 2 :=
    rfl
  have hle := h [] (0, twoPartitions) [(1, emptySector), (1, emptySector)] (by
    rw [hobjects]
    exact List.prefix_rfl)
  rw [htwo] at hle
  exact absurd hle (by decide)

end ContainerAnalyzer

end AVBox
