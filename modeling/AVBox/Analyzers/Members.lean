import AVBox.Analyzers.Steps

/-!
# The members of an object

What a handler hands to `_child` is determined by the bytes of its object: `members` lists it.

The handlers are put together from few constructs.  `HandlerRules` has a rule for each of them, and
one derivation for each function of the source goes from the rules to `objectBody`.  What is proved
of every handler afterwards instantiates the rules.
-/

namespace AVBox

open Program

namespace ContainerAnalyzer

variable {ω : Type}

/-- The bytes of a member. -/
def Member.content (member : Member) : Bytes := member.stream.chunks.flatten

/-! ## The members -/

section Members

variable (env : ExtractEnv) (content : Bytes)

/-- The member that a row of a ZIP directory stands for. -/
def zipChild (info : ZipInfo) (index : ℕ) : Option Member :=
  if info.flagBits &&& 1 ≠ 0 then none
  else if !safeName env info.filename then none
  else if isZipLink info then none
  else if info.fileSize > env.budget.maxSingleChildBytes then none
  else match env.zipOpen content index with
    | .ok stream => some ⟨stream, info.filename, index, .contains⟩
    | .error _ => none

def tarChild (info : TarInfo) (index : ℕ) : Option Member :=
  if !safeName env info.name then none
  else if info.isLink then none
  else if !info.isFile then none
  else if info.size > env.budget.maxSingleChildBytes then none
  else match env.tarExtract content index with
    | .ok (some stream) => some ⟨stream, info.name, index, .contains⟩
    | _ => none

def diskChild (entry : DiskEntry) : Option Member :=
  if !safeName env entry.path then none
  else some ⟨.ofBytes entry.data, entry.path, entry.index, .filesystemEntryOf⟩

def partitionChild (partition : Partition) : Option Member :=
  if partition.length > env.budget.maxMaterializedPartitionBytes then none
  else match Partitions.rangeReader content partition.start partition.length with
  | .ok view =>
      some ⟨.ofBytes view, partitionName partition, partition.index, .partitionOf⟩
  | .error _ => none

/-- What a tool extracts, if it succeeds. -/
def externalStream (kind : Kind) (name : PyStr) : Option ByteStream :=
  if kind = .lha then
    match env.extractLha content name with
    | .ok stream => stream
    | .error _ => none
  else
    match toolOutput env (env.runTool content name) with
    | .ok output => output.map ByteStream.ofBytes
    | .error _ => none

def externalChild (kind : Kind) (row : ExternalMember) (index : ℕ) : Option Member :=
  if !safeName env row.name then none
  else if row.directory then none
  else match row.declared with
    | .ok declared =>
        if declared > env.budget.maxSingleChildBytes then none
        else (externalStream env content kind row.name).map fun stream =>
          ⟨stream, row.name, index, externalRelation kind⟩
    | .error _ => none

/-- The members of a list within the cap. -/
def capped {α : Type} (items : List α) (candidate : α → ℕ → Option Member) : List Member :=
  (items.take env.budget.maxChildrenPerObject).zipIdx.flatMap fun item =>
    (candidate item.1 item.2).toList

def zipMembers : List Member :=
  match env.zipInfos content with
  | .ok infos => capped env infos (zipChild env content)
  | .error _ => []

def tarMembers : List Member :=
  match env.tarInfos content with
  | .ok infos => capped env infos (tarChild env content)
  | .error _ => []

def diskMembers : List Member :=
  match env.parseDiskImage content with
  | .ok (some image) => capped env image.entries fun entry _ => diskChild env entry
  | _ => []

def partitionMembers : List Member :=
  match Partitions.parse content env.budget.maxPartitionsPerDisk with
  | .ok (some table) => table.partitions.flatMap fun partition =>
      (partitionChild env content partition).toList
  | _ => []

def externalMembers (kind : Kind) : List Member :=
  match env.listArchive kind content with
  | .members (.ok rows) => capped env rows (externalChild env content kind)
  | _ => []

def compressedMembers (kind : Kind) : List Member :=
  match env.openCompressed kind content with
  | .ok stream => [⟨stream, decompressedName kind, 0, .decompressedFrom⟩]
  | .error _ => []

/-- The members of a container. -/
def containerMembers : Kind → List Member
  | .corruptZip => []
  | .zip => zipMembers env content
  | .partitionedDisk => partitionMembers env content
  | .fat | .amigaAdf => diskMembers env content
  | .lha => externalMembers env content .lha
  | .iso9660 => externalMembers env content .iso9660
  | .sevenZip => externalMembers env content .sevenZip
  | .cab => externalMembers env content .cab
  | .arj => externalMembers env content .arj
  | .tar => tarMembers env content
  | .gzip => compressedMembers env content .gzip
  | .bzip2 => compressedMembers env content .bzip2
  | .xz => compressedMembers env content .xz

def documentMembers (document : ParsedDocument) : List Member :=
  capped env document.children fun item index =>
    some ⟨.ofBytes item.data, item.name, index, .embeddedFileOf⟩

/-- The document an object is, where one that cannot be parsed is none. -/
def documentOf : Option ParsedDocument :=
  match (if content.length ≤ env.maxDocumentParserBytes then env.parseDocument content
    else .ok none) with
  | .ok document => document
  | .error _ => none

/-- The members of an object. -/
def objectMembers : List Member :=
  match documentOf env content with
  | some document => documentMembers env document
  | none =>
      match kindOf env content with
      | .ok (some kind) => containerMembers env content kind
      | _ => []

end Members

lemma mem_capped_iff {env : ExtractEnv} {α : Type} {items : List α}
    {candidate : α → ℕ → Option Member} {member : Member} :
    member ∈ capped env items candidate ↔
      ∃ index item, (items.take env.budget.maxChildrenPerObject)[index]? = some item ∧
        candidate item index = some member := by
  unfold capped
  rw [List.mem_flatMap]
  constructor
  · rintro ⟨⟨item, index⟩, hitem, hmember⟩
    exact ⟨index, item, List.mk_mem_zipIdx_iff_getElem?.1 hitem, Option.mem_toList.1 hmember⟩
  · rintro ⟨index, item, hitem, hmember⟩
    exact ⟨(item, index), List.mk_mem_zipIdx_iff_getElem?.2 hitem, Option.mem_toList.2 hmember⟩

lemma exists_of_mem_capped {env : ExtractEnv} {α : Type} {items : List α}
    {candidate : α → ℕ → Option Member} {member : Member}
    (h : member ∈ capped env items candidate) :
    ∃ item ∈ items, ∃ index, candidate item index = some member := by
  obtain ⟨index, item, hitem, hmember⟩ := mem_capped_iff.1 h
  exact ⟨item, List.mem_of_mem_take (List.mem_of_getElem? hitem), index, hmember⟩

lemma partitionChild_eq_some {env : ExtractEnv} {content : Bytes} {partition : Partition}
    {member : Member} (h : partitionChild env content partition = some member) :
    member.relation = .partitionOf ∧ member.content.length = partition.length := by
  unfold partitionChild at h
  split at h
  · cases h
  split at h
  next view hview =>
    obtain rfl := Option.some.inj h
    refine ⟨rfl, ?_⟩
    rw [← Partitions.length_of_rangeReader hview]
    simp [Member.content, ByteStream.ofBytes]
  next => cases h

/-! ## Rules for the handlers -/

/-- The writes of the handlers themselves. -/
def Write.plain : Write → Bool
  | .tick | .event _ | .errors _ | .completeness _ | .discovered | .failed _ _ => true
  | _ => false

/-- A judgement on programs and on the members they may visit, in order, with a rule for each
construct of a program. -/
structure ProgramRules (P : ∀ {α : Type}, List Member → Extract ω α → Prop) : Prop where
  pure {α : Type} {members : List Member} (a : α) : P members (Pure.pure a)
  throw {α : Type} {members : List Member} (exc : Exc) : P members (throw exc : Extract ω α)
  perform {members : List Member} {write : Write} (plain : Write.plain write = true) :
    P members (perform write)
  get_bind {β : Type} {members : List Member} {f : ExtractState ω → Extract ω β}
    (h : ∀ s, P members (f s)) : P members (get >>= f)
  /-- The second program is only asked about the values the first one can return. -/
  bind_result {α β : Type} {members members' : List Member} {x : Extract ω α}
    {f : α → Extract ω β} (hx : P members x) (hf : ∀ a, (∃ s t, x s = .ok a t) → P members' (f a)) :
    P (members ++ members') (x >>= f)

/-- The writes to the file of a child. -/
def Write.filing : Write → Bool
  | .created | .read _ | .wrote _ | .unlinked | .stored _ => true
  | _ => false

/-- The rules for the file of a child, which is removed again when an exception leaves it. -/
structure FileRules (P : ∀ {α : Type}, List Member → Extract ω α → Prop) : Prop
    extends ProgramRules P where
  filing {members : List Member} {write : Write} (filing : Write.filing write = true) :
    P members (AVBox.perform write)
  unlink {α : Type} {members : List Member} {x : Extract ω α} (h : P members x) :
    P members (tryCatch x fun exc => do
      AVBox.perform .unlinked
      MonadExcept.throw exc)

/-- The rules for the handlers: the visit of a partition comes with its charge. -/
structure HandlerRules (env : ExtractEnv) (visit : Visit ω)
    (P : ∀ {α : Type}, List Member → Extract ω α → Prop) : Prop extends ProgramRules P where
  visits {members : List Member} {member : Member} (listed : member ∈ members)
    (relation : member.relation ≠ .partitionOf) : P members (visit member)
  partition {content : Bytes} {table : PartitionTable} {partition : Partition}
    (parsed : Partitions.parse content env.budget.maxPartitionsPerDisk = .ok (some table))
    (listed : partition ∈ table.partitions) :
    P (partitionChild env content partition).toList (partitionMember env visit content partition)

variable {P : ∀ {α : Type}, List Member → Extract ω α → Prop} {env : ExtractEnv}
  {visit : Visit ω} {members members' : List Member} {α β : Type}

namespace ProgramRules

variable (h : ProgramRules P)

include h

lemma bind {x : Extract ω α} {f : α → Extract ω β} (hx : P members x)
    (hf : ∀ a, P members' (f a)) : P (members ++ members') (x >>= f) :=
  h.bind_result hx fun a _ => hf a

/-- A first program that visits nothing. -/
lemma bind_nil {x : Extract ω α} {f : α → Extract ω β} (hx : P [] x)
    (hf : ∀ a, P members (f a)) : P members (x >>= f) := h.bind hx hf

/-- A second program that visits nothing. -/
lemma bind_left {x : Extract ω α} {f : α → Extract ω β} (hx : P members x)
    (hf : ∀ a, P [] (f a)) : P members (x >>= f) := List.append_nil members ▸ h.bind hx hf

omit h in
lemma ite {c : Prop} [Decidable c] {x y : Extract ω α} (hx : c → P members x)
    (hy : ¬c → P members y) : P members (if c then x else y) := by
  split
  · exact hx ‹_›
  · exact hy ‹_›

lemma forEach {γ : Type} {body : γ → Extract ω Flow} {items : List γ}
    {candidates : γ → List Member} (hbody : ∀ item ∈ items, P (candidates item) (body item)) :
    P (items.flatMap candidates) (forEach body items) := by
  induction items with
  | nil => exact h.pure _
  | cons item items ih =>
      rw [List.flatMap_cons]
      refine h.bind (hbody item List.mem_cons_self) fun flow => ?_
      cases flow with
      | next => exact ih fun other hother => hbody other (List.mem_cons_of_mem _ hother)
      | stop => exact h.pure _

lemma limit (event : String) : P members (limit event : Extract ω Unit) := h.perform rfl

lemma skip (event : String) : P members (skip event : Extract ω Unit) := h.perform rfl

lemma decode (site : DecodeSite) (r : Except Exc α) : P members (decode site r : Extract ω α) := by
  cases r with
  | ok a => exact h.pure a
  | error exc => exact h.bind_nil (h.perform rfl) fun _ => h.throw exc

lemma decode_bind {site : DecodeSite} {r : Except Exc α} {f : α → Extract ω β}
    (hf : ∀ a, r = .ok a → P members (f a)) : P members (AVBox.decode site r >>= f) := by
  have hdecode : P [] (AVBox.decode site r : Extract ω α) := h.decode site r
  refine h.bind_result hdecode fun a hresult => ?_
  obtain ⟨s, t, hrun⟩ := hresult
  cases r with
  | ok b =>
      obtain ⟨rfl, -⟩ := EStateM.Result.ok.inj hrun
      exact hf b rfl
  | error exc => cases hrun

/-- A call inside its own `try` statement. -/
lemma guarded {site : DecodeSite} {r : Except Exc α} {recover : Exc → Extract ω α}
    (hrecover : ∀ exc, P [] (recover exc)) : P [] (AVBox.guarded site r recover) := by
  cases r with
  | ok a => exact h.pure a
  | error exc =>
      have hguarded : AVBox.guarded site (.error exc) recover =
          if exc.family ∈ site.guards then AVBox.perform (.failed site exc) >>= fun _ => recover exc
          else AVBox.decode site (.error exc) := by
        funext s
        rw [guarded_error]
        split <;> rfl
      rw [hguarded]
      exact ite (fun _ => h.bind_nil (h.perform rfl) fun _ => hrecover exc) fun _ => h.decode _ _

/-- One of which the handler gives nothing back. -/
lemma guarded_bind {site : DecodeSite} {r : Except Exc (Option α)}
    {recover : Exc → Extract ω (Option α)} {f : Option α → Extract ω β}
    (hrecover : ∀ exc, P [] (recover exc)) (hnone : ∀ exc s a t, recover exc s = .ok a t → a = none)
    (hf : ∀ a, r = .ok a ∨ a = none ∧ (∃ exc, r = .error exc) → P members (f a)) :
    P members (AVBox.guarded site r recover >>= f) := by
  have hguarded : P [] (AVBox.guarded site r recover) := h.guarded hrecover
  refine h.bind_result hguarded fun a hresult => hf a ?_
  obtain ⟨s, t, hrun⟩ := hresult
  cases r with
  | ok b => exact .inl (congrArg _ (EStateM.Result.ok.inj hrun).1)
  | error exc =>
      rw [guarded_error] at hrun
      split at hrun
      · exact .inr ⟨hnone _ _ _ _ hrun, exc, rfl⟩
      · cases hrun

lemma canStartChild : P [] (canStartChild env : Extract ω Bool) := by
  refine h.get_bind fun s => ite (fun _ => ?_) fun _ => h.pure _
  exact h.bind_nil (h.limit _) fun _ => h.pure _

lemma expired : P [] (expired env : Extract ω Bool) :=
  h.get_bind fun _ => h.bind_nil (h.perform rfl) fun _ => h.pure _

end ProgramRules

namespace FileRules

variable (h : FileRules P)

include h

lemma readChunks (parentSize : ℕ) (fault : Option Exc) (chunks : List Bytes) (content : Bytes) :
    P [] (readChunks env parentSize fault chunks content) := by
  induction chunks generalizing content with
  | nil => exact h.bind_nil (h.decode _ _) fun _ => h.pure _
  | cons chunk chunks ih =>
      refine h.get_bind fun _ => h.bind_nil (h.filing rfl) fun _ => ?_
      refine h.bind_nil h.expired fun _ => ProgramRules.ite (fun _ => ?_) fun _ =>
        h.get_bind fun s => ?_
      · exact h.bind_nil (h.limit _) fun _ => h.pure _
      · cases chunkLimit env s.usage parentSize content.length chunk with
        | some event => exact h.bind_nil (h.limit _) fun _ => h.pure _
        | none => exact h.bind_nil (h.filing rfl) fun _ => ih _

lemma writeChild (stream : ByteStream) (parentSize number : ℕ) :
    P [] (writeChild env stream parentSize number) := by
  refine h.bind_nil (h.readChunks _ _ _ _) fun read => ?_
  cases read with
  | none => exact h.bind_nil (h.filing rfl) fun _ => h.pure _
  | some content =>
      exact h.bind_nil (h.decode _ _) fun _ => h.bind_nil (h.filing rfl) fun _ => h.pure _

lemma materialize (stream : ByteStream) (parentSize : ℕ) :
    P [] (materialize env stream parentSize) :=
  h.get_bind fun _ => h.bind_nil (h.decode _ _) fun _ =>
    h.bind_nil (h.filing rfl) fun _ => h.unlink (h.writeChild _ _ _)

end FileRules

/-- One pass of the loop over the members. -/
def memberPass (env : ExtractEnv) (body : Extract ω Unit) : Extract ω Flow := do
  AVBox.perform .discovered
  if ← canStartChild env then
    body
    return Flow.next
  else return Flow.stop

lemma eachMember_eq {γ : Type} (items : List γ) (body : γ → ℕ → Extract ω Unit) :
    eachMember env items body = limitChildren env items.length >>= fun _ =>
      forEach (fun item => memberPass env (body item.1 item.2))
        (items.take env.budget.maxChildrenPerObject).zipIdx := rfl

lemma externalStream_of_ok {content : Bytes} {kind : Kind} {name : PyStr}
    {stream : Option ByteStream} {s t : ExtractState ω}
    (h : extractExternal env kind content name s = .ok stream t) :
    externalStream env content kind name = stream := by
  unfold extractExternal at h
  unfold externalStream
  split at h
  next hlha =>
    rw [if_pos hlha]
    cases hextract : env.extractLha content name with
    | ok extracted =>
        rw [hextract] at h
        exact (EStateM.Result.ok.inj h).1
    | error exc =>
        rw [hextract] at h
        cases h
  next hlha =>
    rw [if_neg hlha]
    cases houtput : toolOutput env (env.runTool content name) with
    | ok output =>
        rw [houtput] at h
        exact (EStateM.Result.ok.inj h).1
    | error exc =>
        rw [houtput] at h
        cases h

/-- A document that was read, or none. -/
lemma readDocument_eq_ok {content : Bytes} {document : Option ParsedDocument}
    {s t : ExtractState ω} (h : readDocument env content s = .ok document t) :
    documentOf env content = document := by
  unfold readDocument at h
  unfold documentOf
  cases hparse : (if content.length ≤ env.maxDocumentParserBytes then env.parseDocument content
    else .ok none) with
  | ok parsed =>
      rw [hparse] at h
      exact (EStateM.Result.ok.inj h).1
  | error exc =>
      rw [hparse, guarded_error] at h
      split at h
      · exact (EStateM.Result.ok.inj h).1
      · cases h

lemma externalRelation_ne (kind : Kind) : externalRelation kind ≠ .partitionOf := by
  unfold externalRelation
  split <;> simp

/-! ## The handlers -/

namespace ProgramRules

variable (h : ProgramRules P)

include h

lemma memberPass {body : Extract ω Unit} (hbody : P members body) :
    P members (memberPass env body) := by
  refine h.bind_nil (h.perform rfl) fun _ => h.bind_nil h.canStartChild fun start => ?_
  exact ite (fun _ => h.bind_left hbody fun _ => h.pure _) fun _ => h.pure _

lemma eachMember {γ : Type} {items : List γ} {body : γ → ℕ → Extract ω Unit}
    {candidate : γ → ℕ → Option Member}
    (hbody : ∀ item index, P (candidate item index).toList (body item index)) :
    P (capped env items candidate) (eachMember env items body) := by
  rw [eachMember_eq]
  refine h.bind_nil (ite (fun _ => h.limit _) fun _ => h.pure _) fun _ =>
    h.forEach fun item _ => ?_
  exact h.memberPass (hbody item.1 item.2)

lemma skipAs (event : String) (value : Partial) :
    P members (skipAs event value : Extract ω Unit) :=
  h.bind_nil (h.skip _) fun _ => h.perform rfl

lemma extractExternal {content : Bytes} (kind : Kind) (name : PyStr) :
    P [] (extractExternal env kind content name : Extract ω (Option ByteStream)) :=
  ite (fun _ => h.decode _ _) fun _ => h.bind_nil (h.decode _ _) fun _ => h.pure _

lemma refuse {γ : Type} (texts : List String) (value : γ) :
    P [] (do
      AVBox.perform (.errors texts)
      AVBox.perform (.completeness .error)
      return value : Extract ω γ) :=
  h.bind_nil (h.perform rfl) fun _ => h.bind_nil (h.perform rfl) fun _ => h.pure _

lemma readDocument {content : Bytes} : P [] (readDocument env content : Extract ω _) :=
  h.guarded fun _ => h.refuse _ _

/-- An object that is too deep. -/
lemma objectBody_of_deep {scans : Scans ω} {recurse : Recurse ω} {source : Source}
    (hdepth : env.budget.maxRecursionDepth ≤ source.depth) :
    P [] (objectBody env scans recurse source) :=
  h.bind_nil h.expired fun _ => ite (fun _ => h.limit _) fun _ =>
    ite (fun _ => h.pure _) fun hlt => absurd hdepth hlt

/-- A judgement that allows the charge and every visit has the rule for partitions. -/
lemma partitionMember (content : Bytes) (partition : Partition)
    (hvisit : ∀ member ∈ partitionChild env content partition, P [member] (visit member))
    (hcharge : P [] (AVBox.perform (.charged partition.length))) :
    P (partitionChild env content partition).toList
      (partitionMember env visit content partition) := by
  refine h.bind_nil (h.perform rfl) fun _ => h.bind_nil h.canStartChild fun start => ?_
  refine ite (fun _ => ite (fun _ => ?_) fun hsize => h.get_bind fun s => ite (fun _ => ?_)
    fun _ => ?_) fun _ => h.pure _
  · exact h.bind_nil (h.limit _) fun _ => h.pure _
  · exact h.bind_nil (h.limit _) fun _ => h.pure _
  refine h.decode_bind fun view hview => h.get_bind fun s => ?_
  have hchild : partitionChild env content partition =
      some ⟨.ofBytes view, partitionName partition, partition.index, .partitionOf⟩ := by
    rw [partitionChild, if_neg hsize, hview]
  rw [hchild] at hvisit ⊢
  refine h.bind_left (hvisit _ rfl) fun _ => h.bind_nil (h.get_bind fun s => ?_) fun _ => h.pure _
  exact ite (fun _ => hcharge) fun _ => h.pure _

end ProgramRules

namespace HandlerRules

variable (h : HandlerRules env visit P) {content : Bytes}

include h

lemma zipMember (info : ZipInfo) (index : ℕ) :
    P (zipChild env content info index).toList (zipMember env visit content info index) := by
  refine ProgramRules.ite (fun _ => h.skip _) fun hplain => ?_
  refine ProgramRules.ite (fun _ => h.skip _) fun hsafe => ?_
  refine ProgramRules.ite (fun _ => h.skip _) fun hlink => ?_
  refine ProgramRules.ite (fun _ => h.skip _) fun hsize => ?_
  refine h.decode_bind fun stream hstream => h.visits ?_ (by simp)
  rw [zipChild, if_neg hplain, if_neg hsafe, if_neg hlink, if_neg hsize, hstream]
  exact List.mem_singleton_self _

lemma tarMember (info : TarInfo) (index : ℕ) :
    P (tarChild env content info index).toList (tarMember env visit content info index) := by
  refine ProgramRules.ite (fun _ => h.skip _) fun hsafe => ?_
  refine ProgramRules.ite (fun _ => h.skip _) fun hlink => ?_
  refine ProgramRules.ite (fun _ => h.skip _) fun hfile => ?_
  refine ProgramRules.ite (fun _ => h.skip _) fun hsize => ?_
  refine h.decode_bind fun stream hstream => ?_
  cases stream with
  | none => exact h.pure _
  | some stream =>
      refine h.visits ?_ (by simp)
      rw [tarChild, if_neg hsafe, if_neg hlink, if_neg hfile, if_neg hsize, hstream]
      exact List.mem_singleton_self _

lemma diskEntry (entry : DiskEntry) :
    P (diskChild env entry).toList (diskEntry env visit entry) := by
  refine ProgramRules.ite (fun _ => h.skip _) fun hsafe => h.visits ?_ (by simp)
  rw [diskChild, if_neg hsafe]
  exact List.mem_singleton_self _

lemma externalMember (kind : Kind) (row : ExternalMember) (index : ℕ) :
    P (externalChild env content kind row index).toList
      (externalMember env visit kind content row index) := by
  refine ProgramRules.ite (fun _ => h.skip _) fun hsafe => ?_
  refine ProgramRules.ite (fun _ => h.pure _) fun hfile => ?_
  refine h.decode_bind fun declared hdeclared => ?_
  refine ProgramRules.ite (fun _ => h.skip _) fun hsize => ?_
  refine h.bind_result (h.extractExternal kind row.name) fun stream hresult => ?_
  obtain ⟨s, t, hrun⟩ := hresult
  have hstream := externalStream_of_ok hrun
  cases stream with
  | none => exact h.skip _
  | some stream =>
      refine h.visits ?_ (externalRelation_ne kind)
      rw [externalChild, if_neg hsafe, if_neg hfile, hdeclared]
      simp only [if_neg hsize, hstream]
      exact List.mem_singleton_self _

lemma processZip : P (zipMembers env content) (processZip env visit content) := by
  refine h.decode_bind fun infos hinfos => ?_
  rw [zipMembers, hinfos]
  exact h.eachMember h.zipMember

lemma processTar : P (tarMembers env content) (processTar env visit content) := by
  refine h.decode_bind fun infos hinfos => ?_
  rw [tarMembers, hinfos]
  exact h.eachMember h.tarMember

lemma processCompressed (kind : Kind) :
    P (compressedMembers env content kind) (processCompressed env visit kind content) := by
  refine h.decode_bind fun stream hstream => h.bind_nil (h.perform rfl) fun _ =>
    h.visits ?_ (by simp)
  rw [compressedMembers, hstream]
  exact List.mem_singleton_self _

lemma processPartitionedDisk :
    P (partitionMembers env content) (processPartitionedDisk env visit content) := by
  refine h.guarded_bind (fun exc => h.bind_nil (h.skip _) fun _ => h.refuse _ _) ?_ ?_
  · intro exc s a t hrun
    exact (EStateM.Result.ok.inj hrun).1.symm
  · intro table htable
    cases table with
    | none => exact h.pure _
    | some table =>
        have hparse := htable.resolve_right nofun
        rw [partitionMembers, hparse]
        refine h.bind_nil (ProgramRules.ite (fun _ => h.pure _) fun _ => ?_) fun _ =>
          h.forEach fun _ => h.partition hparse
        exact h.bind_nil (h.perform rfl) fun _ => h.perform rfl

lemma processDiskImage : P (diskMembers env content) (processDiskImage env visit content) := by
  refine h.guarded_bind (fun exc => h.bind_nil (h.skip _) fun _ => h.refuse _ _) ?_ ?_
  · intro exc s a t hrun
    exact (EStateM.Result.ok.inj hrun).1.symm
  · intro image himage
    cases image with
    | none => exact h.pure _
    | some image =>
        have hparse := himage.resolve_right nofun
        rw [diskMembers, hparse]
        exact h.eachMember fun entry _ => h.diskEntry entry

lemma processExternalArchive (kind : Kind) :
    P (externalMembers env content kind) (processExternalArchive env visit kind content) := by
  unfold ContainerAnalyzer.processExternalArchive externalMembers
  cases env.listArchive kind content with
  | unavailable => exact h.skipAs _ _
  | notRun => exact h.skipAs _ _
  | refused encrypted => cases encrypted <;> exact h.skipAs _ _
  | members rows =>
      refine h.decode_bind fun rows' hrows => ?_
      rw [hrows]
      exact h.eachMember fun row index => h.externalMember kind row index

/-- One case for each kind of container. -/
lemma processContainer (kind : Kind) :
    P (containerMembers env content kind) (processContainer env visit content kind) := by
  cases kind with
  | corruptZip => exact h.skipAs _ _
  | zip => exact h.processZip
  | partitionedDisk => exact h.processPartitionedDisk
  | fat | amigaAdf => exact h.processDiskImage
  | tar => exact h.processTar
  | gzip | bzip2 | xz => exact h.processCompressed _
  | lha | iso9660 | sevenZip | cab | arj => exact h.processExternalArchive _

lemma processDocument (document : ParsedDocument) :
    P (documentMembers env document) (processDocument env visit document) := by
  refine h.bind_nil (h.get_bind fun s => ?_) fun _ => ?_
  · cases document.partially with
    | none => exact h.pure _
    | some state => exact ProgramRules.ite (fun _ => h.perform rfl) fun _ => h.pure _
  · exact h.eachMember fun item index => h.visits (List.mem_singleton_self _) (by simp)

end HandlerRules

/-- An object visits its members. -/
theorem HandlerRules.objectBody {scans : Scans ω} {recurse : Recurse ω} {source : Source}
    (h : HandlerRules env (childOf env scans recurse source) P) :
    P (objectMembers env source.content) (objectBody env scans recurse source) := by
  refine h.bind_nil h.expired fun _ => ?_
  refine ProgramRules.ite (fun _ => h.limit _) fun _ => ?_
  refine ProgramRules.ite (fun _ => h.pure _) fun _ => ?_
  rw [← List.nil_append (objectMembers env source.content)]
  refine h.bind_result h.readDocument fun document hresult => ?_
  obtain ⟨s, t, hread⟩ := hresult
  rw [objectMembers, readDocument_eq_ok hread]
  cases document with
  | some document => exact h.processDocument document
  | none =>
      refine h.decode_bind fun kind hkind => ?_
      rw [hkind]
      cases kind with
      | none => exact h.pure _
      | some kind => exact h.processContainer kind

end ContainerAnalyzer

end AVBox
