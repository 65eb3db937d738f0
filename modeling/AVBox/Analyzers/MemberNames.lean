import AVBox.Analyzers.Document
import AVBox.Analyzers.ObjectGraph
import AVBox.Analyzers.Visits
import AVBox.Lib.Text

/-!
# The names of members

`_safe_name` reads a name with every backslash as a separator, and the names are joined to a
directory as they are.  `safeName_inside` says that a name which is accepted leads nowhere outside
that directory in either reading.  `member_names` adds what becomes of the members whose names are
not accepted.  The payloads of a document are not asked for their names, so it speaks of the runs
in which no document has a name that would not be accepted.
-/

namespace AVBox

open Program Transitions

namespace ContainerAnalyzer

/-! ## Paths -/

/-- One component of a path. -/
def enter (place : List PyStr) (part : PyStr) : List PyStr :=
  if part = [] ∨ part = PyStr.ofString "." then place
  else if part = PyStr.ofString ".." then place.dropLast
  else place ++ [part]

/-- Where `Path(base) / path` begins. -/
def origin (base : List PyStr) (path : PyStr) : List PyStr :=
  if path.head? = some 0x2F then [] else base

/-- `Path(base) / path` does not leave `base` at any of its components. -/
def Inside (base : List PyStr) (path : PyStr) : Prop :=
  ∀ parts, parts <+: path.splitOn 0x2F → base <+: parts.foldl enter (origin base path)

lemma prefix_foldl_enter {base place : List PyStr} {parts : List PyStr} (hbase : base <+: place)
    (h : PyStr.ofString ".." ∉ parts) : base <+: parts.foldl enter place := by
  induction parts generalizing place with
  | nil => exact hbase
  | cons part parts ih =>
      rw [List.mem_cons, not_or] at h
      refine ih ?_ h.2
      unfold enter
      split
      · exact hbase
      · rw [if_neg fun hup => h.1 hup.symm]
        exact hbase.trans (List.prefix_append _ _)

lemma inside_of_not_mem {base : List PyStr} {path : PyStr} (hhead : path.head? ≠ some 0x2F)
    (hup : PyStr.ofString ".." ∉ path.splitOn 0x2F) : Inside base path := by
  intro parts hparts
  rw [origin, if_neg hhead]
  exact prefix_foldl_enter List.prefix_rfl fun hmem => hup (hparts.subset hmem)

/-- A `..` between slashes is one in the other reading too. -/
lemma up_mem_slashes {name : PyStr} (h : PyStr.ofString ".." ∈ name.splitOn 0x2F) :
    PyStr.ofString ".." ∈ (slashes name).splitOn 0x2F := by
  rw [List.splitOn_eq_splitOnP] at h ⊢
  rw [slashes, Text.splitOnP_map,
    Text.splitOnP_eq_flatMap (p := fun c => c == 0x2F) fun c hc => ?_]
  · refine List.mem_map.2 ⟨PyStr.ofString "..", List.mem_flatMap.2 ⟨_, h, ?_⟩, by decide⟩
    rw [List.splitOnP_eq_singleton fun c hc => ?_]
    · exact List.mem_singleton_self _
    · obtain rfl : c = 0x2E := List.eq_of_mem_replicate (n := 2) hc
      rfl
  · rw [beq_iff_eq] at hc
    subst hc
    rfl

variable {env : ExtractEnv}

/-- What an accepted name is like. -/
lemma safeName_parts {name : PyStr} (h : safeName env name = true) :
    (name.head? ≠ some 0x2F ∧ name.head? ≠ some 0x5C) ∧
      PyStr.ofString ".." ∉ (slashes name).splitOn 0x2F := by
  unfold safeName at h
  split at h
  · cases h
  · split at h
    · cases h
    · split at h
      · cases h
      next hhead =>
        split at h
        · cases h
        · refine ⟨not_or.1 hhead, fun hmem => (of_decide_eq_true h).2 ?_⟩
          exact List.mem_filter.2 ⟨hmem, by decide⟩

/-- An accepted name stays inside every directory, in both readings. -/
theorem safeName_inside {name : PyStr} (h : safeName env name = true) (base : List PyStr) :
    Inside base name ∧ Inside base (slashes name) := by
  obtain ⟨⟨hslash, hbackslash⟩, hup⟩ := safeName_parts h
  refine ⟨inside_of_not_mem hslash fun hmem => hup (up_mem_slashes hmem),
    inside_of_not_mem (fun hhead => ?_) hup⟩
  rw [slashes, List.head?_map] at hhead
  obtain ⟨c, hc, hseparator⟩ := Option.map_eq_some_iff.1 hhead
  split at hseparator
  next hback => exact hbackslash (hc.trans (congrArg some (Fin.ext hback)))
  · exact hslash (hc.trans (congrArg some hseparator))

/-! ## Members that are handed on -/

/-- The edges from an archive, a filesystem image or a document. -/
def memberEdge : Relation → Bool
  | .contains | .filesystemEntryOf | .embeddedFileOf => true
  | _ => false

section Members

variable {content : Bytes} {member : Member}

lemma safeName_of_zipChild {info : ZipInfo} {index : ℕ}
    (h : zipChild env content info index = some member) : safeName env member.name = true := by
  simp only [zipChild, Option.ite_none_left_eq_some] at h
  obtain ⟨-, hsafe, -, -, hopen⟩ := h
  split at hopen
  · cases hopen
    simpa using hsafe
  · cases hopen

lemma safeName_of_tarChild {info : TarInfo} {index : ℕ}
    (h : tarChild env content info index = some member) : safeName env member.name = true := by
  simp only [tarChild, Option.ite_none_left_eq_some] at h
  obtain ⟨hsafe, -, -, -, hopen⟩ := h
  split at hopen
  · cases hopen
    simpa using hsafe
  · cases hopen

lemma safeName_of_diskChild {entry : DiskEntry} (h : diskChild env entry = some member) :
    safeName env member.name = true := by
  rw [diskChild, Option.ite_none_left_eq_some] at h
  cases h.2
  simpa using h.1

lemma safeName_of_externalChild {kind : Kind} {row : ExternalMember} {index : ℕ}
    (h : externalChild env content kind row index = some member) :
    safeName env member.name = true := by
  simp only [externalChild, Option.ite_none_left_eq_some] at h
  obtain ⟨hsafe, -, hdeclared⟩ := h
  split at hdeclared
  · obtain ⟨-, hstream⟩ := Option.ite_none_left_eq_some.1 hdeclared
    obtain ⟨stream, -, rfl⟩ := Option.map_eq_some_iff.1 hstream
    simpa using hsafe
  · cases hdeclared

/-- A list of members of one kind. -/
lemma forall_mem_capped {α : Type} {items : List α} {candidate : α → ℕ → Option Member}
    {P : Member → Prop} (h : ∀ item index member, candidate item index = some member → P member) :
    ∀ member ∈ capped env items candidate, P member := by
  intro member hmember
  obtain ⟨item, -, index, hcandidate⟩ := exists_of_mem_capped hmember
  exact h item index member hcandidate

lemma safeName_of_mem_external {kind : Kind} (h : member ∈ externalMembers env content kind) :
    safeName env member.name = true := by
  unfold externalMembers at h
  split at h
  · exact forall_mem_capped (fun _ _ _ => safeName_of_externalChild) member h
  · cases h

/-- What a compressed file holds is no member with a name of its own. -/
lemma memberEdge_of_mem_compressed {kind : Kind} (h : member ∈ compressedMembers env content kind) :
    memberEdge member.relation = false := by
  unfold compressedMembers at h
  split at h
  · obtain rfl := List.mem_singleton.1 h
    rfl
  · cases h

/-- Nor is a partition. -/
lemma memberEdge_of_mem_partitions (h : member ∈ partitionMembers env content) :
    memberEdge member.relation = false := by
  unfold partitionMembers at h
  split at h
  · obtain ⟨partition, -, hpartition⟩ := List.mem_flatMap.1 h
    rw [(partitionChild_eq_some (Option.mem_toList.1 hpartition)).1]
    rfl
  · cases h

lemma safeName_of_mem_container {kind : Kind} (h : member ∈ containerMembers env content kind)
    (hnamed : memberEdge member.relation = true) : safeName env member.name = true := by
  cases kind with
  | corruptZip => cases h
  | zip =>
      replace h : member ∈ zipMembers env content := h
      unfold zipMembers at h
      split at h
      · exact forall_mem_capped (fun _ _ _ => safeName_of_zipChild) member h
      · cases h
  | tar =>
      replace h : member ∈ tarMembers env content := h
      unfold tarMembers at h
      split at h
      · exact forall_mem_capped (fun _ _ _ => safeName_of_tarChild) member h
      · cases h
  | fat | amigaAdf =>
      replace h : member ∈ diskMembers env content := h
      unfold diskMembers at h
      split at h
      · exact forall_mem_capped (fun _ _ _ => safeName_of_diskChild) member h
      · cases h
  | partitionedDisk =>
      exact absurd hnamed (by simp [memberEdge_of_mem_partitions h])
  | gzip | bzip2 | xz => exact absurd hnamed (by simp [memberEdge_of_mem_compressed h])
  | lha | iso9660 | sevenZip | cab | arj => exact safeName_of_mem_external h

end Members

/-! ## Members that are not -/

/-- The names in an external listing. -/
def externalNames (env : ExtractEnv) (content : Bytes) (kind : Kind) : List PyStr :=
  match env.listArchive kind content with
  | .members (.ok rows) => rows.map fun row => row.name
  | _ => []

def diskNames (env : ExtractEnv) (content : Bytes) : List PyStr :=
  match env.parseDiskImage content with
  | .ok (some image) => image.entries.map fun entry => entry.path
  | _ => []

/-- The names in the listing of an archive or of a filesystem image. -/
def listedNames (env : ExtractEnv) (content : Bytes) (kind : Kind) : List PyStr :=
  match kind with
  | .zip => ((env.zipInfos content).toOption.getD []).map fun info => info.filename
  | .tar => ((env.tarInfos content).toOption.getD []).map fun info => info.name
  | .fat | .amigaAdf => diskNames env content
  | .lha | .iso9660 | .sevenZip | .cab | .arj => externalNames env content kind
  | _ => []

/-- The object is an archive or a filesystem image, and the name of a member is not accepted. -/
def Rejects (env : ExtractEnv) (content : Bytes) : Prop :=
  ∃ kind, kindOf env content = .ok (some kind) ∧
    ∃ name ∈ listedNames env content kind, safeName env name = false

/-- An object that is parsed as a document has no name that would not be accepted: none of a
payload, and none in its listing as an archive. -/
def NamesClear (env : ExtractEnv) (content : Bytes) : Prop :=
  ∀ document, documentOf env content = some document →
    (∀ child ∈ document.children, safeName env child.name = true) ∧ ¬Rejects env content

/-- What is handed on from such an object has a name that is accepted. -/
lemma safeName_of_mem_object {content : Bytes} {member : Member} (hclear : NamesClear env content)
    (h : member ∈ objectMembers env content) (hnamed : memberEdge member.relation = true) :
    safeName env member.name = true := by
  unfold objectMembers at h
  split at h
  next document hdocument =>
    obtain ⟨item, hitem, index, hcandidate⟩ := exists_of_mem_capped h
    cases hcandidate
    exact (hclear document hdocument).1 item hitem
  · split at h
    · exact safeName_of_mem_container h hnamed
    · cases h

/-- The events that say why a member is left out. -/
def leftOutEvents : List String :=
  ["UNSAFE_MEMBER_PATH", "ENCRYPTED_CONTAINER", "CHILD_COUNT_LIMIT", "TOTAL_CHILD_COUNT_LIMIT",
    "EXTRACTION_TIME_LIMIT"]

/-- One of them was recorded. -/
def LeftOut (s : ExtractState ω) : Prop := ∃ event ∈ leftOutEvents, event ∈ s.usage.limitEvents

section Events

variable {visit : Visit ω} {content : Bytes} {s t : ExtractState ω}

lemma LeftOut.mono (h : LeftOut s) (hgrows : Grows s t) : LeftOut t := by
  obtain ⟨event, hevent, hmem⟩ := h
  exact ⟨event, hevent, hgrows.events hmem⟩

lemma grows_respected : Respected (Grows (ω := ω)) where
  refl := Grows.refl
  trans _ _ _ := Grows.trans
  minor write _ s := grows_apply s write

lemma leftOut_event {event : String} (h : event ∈ leftOutEvents) (s : ExtractState ω) :
    LeftOut ((Write.event event).apply s) :=
  ⟨event, h, mem_addEvent _ _⟩

lemma memberPass_grows {body : Extract ω Unit} (h : Carries Grows body) :
    Carries Grows (memberPass env body) :=
  @ProgramRules.memberPass ω _ env [] (carries_rules grows_respected) body h

/-- Of the passes of a loop, one comes to each item, or a limit is noted. -/
lemma forEach_leftOut {γ : Type} {passes : List γ} {body : γ → Extract ω Unit} {pass : γ}
    (hgrows : ∀ pass, Carries Grows (body pass)) (hpass : pass ∈ passes)
    (hbody : ∀ s t, body pass s = .ok () t → LeftOut t)
    (hrun : forEach (fun pass => memberPass env (body pass)) passes s = .ok () t) : LeftOut t := by
  induction passes generalizing s with
  | nil => cases hpass
  | cons first passes ih =>
      obtain ⟨flow, u, hfirst, hrest⟩ := bind_eq_ok.1 hrun
      rcases memberPass_eq_ok hfirst with ⟨rfl, -, rfl⟩ | ⟨rfl, -, hdone⟩
      · obtain ⟨-, rfl⟩ := EStateM.Result.ok.inj hrest
        exact leftOut_event (by decide) _
      · rcases List.mem_cons.1 hpass with rfl | hlater
        · have hgrowsRest :
              Carries Grows (forEach (fun pass => memberPass env (body pass)) passes) :=
            Ends.forEach grows_respected.composes fun pass _ => memberPass_grows (hgrows pass)
          exact (hbody _ _ hdone).mono (hgrowsRest.of_ok hrest)
        · exact ih hlater hrest

/-- A loop over members notes that it leaves one out, if its passes do. -/
lemma eachMember_leftOut {γ : Type} {items : List γ} {body : γ → ℕ → Extract ω Unit} {item : γ}
    (hgrows : ∀ item index, Carries Grows (body item index)) (hitem : item ∈ items)
    (hbody : ∀ index s t, body item index s = .ok () t → LeftOut t)
    (hrun : eachMember env items body s = .ok () t) : LeftOut t := by
  rw [eachMember_eq] at hrun
  obtain ⟨⟨⟩, u, hlimit, hloop⟩ := bind_eq_ok.1 hrun
  by_cases hcap : env.budget.maxChildrenPerObject < items.length
  · have hgrowsLoop := (Ends.forEach grows_respected.composes fun (pass : γ × ℕ) _ =>
      memberPass_grows (hgrows pass.1 pass.2)).of_ok hloop
    rw [limitChildren, if_pos hcap] at hlimit
    obtain ⟨-, rfl⟩ := EStateM.Result.ok.inj hlimit
    exact (leftOut_event (by decide) s).mono hgrowsLoop
  · rw [List.take_of_length_le (Nat.le_of_not_lt hcap)] at hloop
    obtain ⟨index, hindex⟩ := List.mem_iff_getElem?.1 hitem
    exact forEach_leftOut (fun pass => hgrows pass.1 pass.2)
      (List.mk_mem_zipIdx_iff_getElem?.2 hindex) (hbody index) hloop

lemma leftOut_of_skip {event : String} (h : event ∈ leftOutEvents)
    (hrun : skip event s = .ok () t) : LeftOut t := by
  obtain ⟨-, rfl⟩ := EStateM.Result.ok.inj hrun
  exact leftOut_event h s

lemma zipMember_leftOut {info : ZipInfo} {index : ℕ} (hsafe : safeName env info.filename = false)
    (hrun : zipMember env visit content info index s = .ok () t) : LeftOut t := by
  unfold zipMember at hrun
  by_cases hflag : info.flagBits &&& 1 ≠ 0
  · rw [if_pos hflag] at hrun
    exact leftOut_of_skip (by decide) hrun
  · rw [if_neg hflag, if_pos (by rw [hsafe]; rfl)] at hrun
    exact leftOut_of_skip (by decide) hrun

lemma tarMember_leftOut {info : TarInfo} {index : ℕ} (hsafe : safeName env info.name = false)
    (hrun : tarMember env visit content info index s = .ok () t) : LeftOut t := by
  rw [tarMember, if_pos (by rw [hsafe]; rfl)] at hrun
  exact leftOut_of_skip (by decide) hrun

lemma diskEntry_leftOut {entry : DiskEntry} (hsafe : safeName env entry.path = false)
    (hrun : diskEntry env visit entry s = .ok () t) : LeftOut t := by
  rw [diskEntry, if_pos (by rw [hsafe]; rfl)] at hrun
  exact leftOut_of_skip (by decide) hrun

lemma externalMember_leftOut {kind : Kind} {row : ExternalMember} {index : ℕ}
    (hsafe : safeName env row.name = false)
    (hrun : externalMember env visit kind content row index s = .ok () t) : LeftOut t := by
  rw [externalMember, if_pos (by rw [hsafe]; rfl)] at hrun
  exact leftOut_of_skip (by decide) hrun

section Visit

variable (hvisit : ∀ member, Carries Grows (visit member)) {name : PyStr}
  (hsafe : safeName env name = false)

include hvisit hsafe

lemma processZip_leftOut (hname : name ∈ listedNames env content .zip)
    (hrun : processZip env visit content s = .ok () t) : LeftOut t := by
  obtain ⟨infos, u, hdecode, hmembers⟩ := bind_eq_ok.1 hrun
  obtain ⟨hinfos, rfl⟩ := decode_eq_ok hdecode
  rw [listedNames, hinfos] at hname
  obtain ⟨info, hinfo, rfl⟩ := List.mem_map.1 hname
  exact eachMember_leftOut (handlerRules_carries grows_respected hvisit).zipMember
    hinfo (fun index s t => zipMember_leftOut hsafe) hmembers

lemma processTar_leftOut (hname : name ∈ listedNames env content .tar)
    (hrun : processTar env visit content s = .ok () t) : LeftOut t := by
  obtain ⟨infos, u, hdecode, hmembers⟩ := bind_eq_ok.1 hrun
  obtain ⟨hinfos, rfl⟩ := decode_eq_ok hdecode
  rw [listedNames, hinfos] at hname
  obtain ⟨info, hinfo, rfl⟩ := List.mem_map.1 hname
  exact eachMember_leftOut (handlerRules_carries grows_respected hvisit).tarMember
    hinfo (fun index s t => tarMember_leftOut hsafe) hmembers

lemma processDiskImage_leftOut (hname : name ∈ diskNames env content)
    (hrun : processDiskImage env visit content s = .ok () t) : LeftOut t := by
  unfold diskNames at hname
  obtain ⟨image, u, hparse, hmembers⟩ := bind_eq_ok.1 hrun
  cases himage : env.parseDiskImage content with
  | error exc =>
      rw [himage] at hname
      cases hname
  | ok parsed =>
      rw [himage] at hname hparse
      obtain ⟨rfl, rfl⟩ := EStateM.Result.ok.inj hparse
      cases parsed with
      | none => cases hname
      | some image =>
          obtain ⟨entry, hentry, rfl⟩ := List.mem_map.1 hname
          have hgrows : ∀ entry (_ : ℕ), Carries Grows (diskEntry env visit entry) := fun _ _ =>
            Ends.ite (fun _ => carries_skip grows_respected _) fun _ => hvisit _
          exact eachMember_leftOut hgrows hentry (fun index s t => diskEntry_leftOut hsafe) hmembers

lemma processExternalArchive_leftOut {kind : Kind} (hname : name ∈ externalNames env content kind)
    (hrun : processExternalArchive env visit kind content s = .ok () t) : LeftOut t := by
  unfold externalNames at hname
  unfold processExternalArchive at hrun
  split at hname
  next rows hlisting =>
    rw [hlisting] at hrun
    obtain ⟨row, hrow, rfl⟩ := List.mem_map.1 hname
    have hmembers : eachMember env rows (externalMember env visit kind content) s = .ok () t := hrun
    exact eachMember_leftOut
      ((handlerRules_carries grows_respected hvisit).externalMember kind) hrow
      (fun index s t => externalMember_leftOut hsafe) hmembers
  · cases hname

/-- One case for each kind of container. -/
lemma processContainer_leftOut {kind : Kind} (hname : name ∈ listedNames env content kind)
    (hrun : processContainer env visit content kind s = .ok () t) : LeftOut t := by
  cases kind with
  | zip => exact processZip_leftOut hvisit hsafe hname hrun
  | tar => exact processTar_leftOut hvisit hsafe hname hrun
  | fat | amigaAdf => exact processDiskImage_leftOut hvisit hsafe hname hrun
  | lha | iso9660 | sevenZip | cab | arj =>
      exact processExternalArchive_leftOut hvisit hsafe hname hrun
  | corruptZip | partitionedDisk | gzip | bzip2 | xz => cases hname

end Visit

/-- An object whose handler has returned has noted that a member was left out. -/
lemma objectBody_leftOut {scans : Scans ω} {recurse : Recurse ω} {source : Source}
    (hvisit : ∀ member, Carries Grows (childOf env scans recurse source member))
    (hdepth : source.depth < env.budget.maxRecursionDepth)
    (hdocument : documentOf env source.content = none) (hrejects : Rejects env source.content)
    (hrun : objectBody env scans recurse source s = .ok () t) : LeftOut t := by
  obtain ⟨kind, hkind, name, hname, hsafe⟩ := hrejects
  unfold objectBody at hrun
  rw [bind_of_ok (expired_apply s)] at hrun
  split at hrun
  · exact leftOut_of_skip (by decide) hrun
  · rw [if_neg (Nat.not_le.2 hdepth)] at hrun
    obtain ⟨document, u, hread, hrest⟩ := bind_eq_ok.1 hrun
    rw [readDocument_eq_ok hread] at hdocument
    rw [hdocument] at hrest
    obtain ⟨kind', v, hdecode, hcontainer⟩ := bind_eq_ok.1 hrest
    obtain ⟨hkind', rfl⟩ := decode_eq_ok hdecode
    obtain rfl := Except.ok.inj (hkind.symm.trans hkind')
    exact processContainer_leftOut hvisit hsafe hname hcontainer

/-- What holds of an object of the graph once the extraction has gone past it. -/
def Settled (env : ExtractEnv) (t : ExtractState ω) (object : ℕ × Bytes) : Prop :=
  object.1 < env.budget.maxRecursionDepth → documentOf env object.2 = none →
    Rejects env object.2 → LeftOut t

/-- Events stay, and what they settle does. -/
lemma persists_settled : Persists (Grows (ω := ω)) (Settled env) where
  refl := Grows.refl
  trans _ _ _ := Grows.trans
  write s write := grows_apply s write
  scan _ _ := ⟨fun _ h => h, Nat.le_refl _, Nat.le_refl _, id, List.prefix_rfl, rfl⟩
  along _ _ _ hgrows h hdepth hdocument hrejects := (h hdepth hdocument hrejects).mono hgrows

lemma settled_respected : Respected (Settles (ω := ω) Grows (Settled env)) :=
  settles_respected persists_settled

/-- What is below a child. -/
lemma below_settles {recurse : Recurse ω} {depth : ℕ} {artifact : InputArtifact}
    (hrecurse : Carries
      (fun s t => Settles Grows (Settled env) s t ∧ Settled env t (depth, content))
      (recurse depth artifact content)) :
    Carries (fun s t => Settles Grows (Settled env) s t ∧ Settled env t (depth, content))
      (below env recurse depth artifact content) := by
  unfold below
  by_cases hdepth : depth ≥ env.budget.maxRecursionDepth
  · rw [if_pos hdepth]
    have hR := @settled_respected ω env
    have hkind : Carries (Settles Grows (Settled env)) (do
        let kind ← decode .kind (kindOf env content)
        if kind.isSome then limit "RECURSION_LIMIT_REACHED" : Extract ω Unit) := by
      refine Ends.bind hR.composes (carries_decode hR _ _) fun kind => ?_
      exact Ends.ite (fun _ => carries_limit hR _) fun _ => Ends.pure hR.composes _
    intro s
    have hend := hkind s
    split at hend
    · exact ⟨hend, fun hlt => absurd hlt (Nat.not_lt.2 hdepth)⟩
    · trivial
  · rw [if_neg hdepth]
    exact hrecurse

/-- By induction on the fuel: an object and what is below it are settled. -/
lemma processObject_settles {scans : Scans ω} (fuel depth : ℕ) (parent : InputArtifact)
    (content : Bytes) :
    Carries (fun s t => Settles Grows (Settled env) s t ∧ Settled env t (depth, content))
      (processObject env scans fuel depth parent content) := by
  induction fuel generalizing depth parent content with
  | zero => exact fun _ => trivial
  | succ fuel ih =>
      have hvisit : ∀ member, Carries (Settles Grows (Settled env))
          (childOf env scans (processObject env scans fuel) ⟨parent, depth, content⟩ member) := by
        refine fun member => carries_of_ok fun s a t hrun => ?_
        have hsplit := childOf_split env scans (processObject env scans fuel)
          ⟨parent, depth, content⟩ member s
        rw [hrun] at hsplit
        cases hsplit with
        | aside before ends =>
            rcases ends with ⟨hends, -⟩ | ⟨exc, hends⟩
            · obtain ⟨-, rfl⟩ := EStateM.Result.ok.inj hends
              exact .of_asides persists_settled before.asides
            · cases hends
        | failed before after ends =>
            obtain ⟨exc, hends⟩ := ends
            cases hends
        | entered artifact result before after named ends =>
            obtain ⟨hrest, hchild⟩ := (below_settles (ih _ _ member.content)).of_ok ends.symm
            exact settled_respected.trans _ _ _ (.of_asides persists_settled (before.begun after))
              (hrest.recorded persists_settled hchild)
      refine carries_of_ok fun s a t hrun => ?_
      have hbody : objectBody env scans (processObject env scans fuel) ⟨parent, depth, content⟩ s =
          .ok () t := hrun
      refine ⟨(objectBody_carries settled_respected hvisit).of_ok hbody,
        fun hdepth hdocument hrejects =>
          objectBody_leftOut (fun member => ?_) hdepth hdocument hrejects hbody⟩
      exact carries_of_ok fun s a t hchild => ((hvisit member).of_ok hchild).grows

/-! ## Every extraction -/

/-- No object that is looked into is a document with a name that would not be accepted. -/
def Clear (env : ExtractEnv) (t : ExtractState ω) : Prop :=
  ∀ object ∈ t.trace.objects, object.1 < env.budget.maxRecursionDepth → NamesClear env object.2

/-- Whatever joins the graph as a member has a name that is accepted, if the objects are clear. -/
structure NamedEdges (env : ExtractEnv) (s t : ExtractState ω) : Prop where
  objects : s.trace.objects <+: t.trace.objects
  named : Clear env t → ∀ edge ∈ t.job.relationships, edge ∈ s.job.relationships ∨
    (memberEdge edge.relationship = true → safeName env edge.memberName = true)

lemma SameGraph.namedEdges (h : SameGraph s t) : NamedEdges env s t :=
  ⟨h.1 ▸ List.prefix_rfl, fun _ _ hedge => .inl (h.2.2 ▸ hedge)⟩

lemma NamedEdges.trans {u : ExtractState ω} (h : NamedEdges env s t) (h' : NamedEdges env t u) :
    NamedEdges env s u := by
  refine ⟨h.objects.trans h'.objects, fun hclear edge hedge => ?_⟩
  rcases h'.named hclear edge hedge with hmem | hnamed
  · exact h.named (fun object hobject => hclear object (h'.objects.subset hobject)) edge hmem
  · exact .inr hnamed

/-- From a state in which an object is in the graph. -/
def NamedFrom (env : ExtractEnv) (object : ℕ × Bytes) (s t : ExtractState ω) : Prop :=
  object ∈ s.trace.objects → NamedEdges env s t

lemma namedFrom_respected (object : ℕ × Bytes) :
    Respected (NamedFrom (ω := ω) env object) where
  refl _ _ := SameGraph.namedEdges ⟨rfl, rfl, rfl⟩
  trans _ _ _ h h' hobject :=
    (h hobject).trans (h' ((h hobject).objects.subset hobject))
  minor write hminor s _ := (asides_respected.minor write hminor s).sameGraph.namedEdges

/-- A member whose name is accepted joins the graph. -/
lemma childOf_namedEdges {scans : Scans ω} {recurse : Recurse ω} {source : Source}
    {member : Member} (hdepth : source.depth < env.budget.maxRecursionDepth)
    (hrecurse : ∀ artifact content, Moves (NamedFrom env (source.depth + 1, content))
      (recurse (source.depth + 1) artifact content))
    (hmember : member ∈ objectMembers env source.content) :
    Moves (NamedFrom env (source.depth, source.content))
      (childOf env scans recurse source member) := by
  intro s hsource
  rcases (childOf_split env scans recurse source member s).final_cases with
    ⟨aside, -⟩ | ⟨artifact, content, result, u, before, -, hfinal⟩
  · exact aside.sameGraph.namedEdges
  · have hbelow := @below_moves ω env _ (namedFrom_respected (source.depth + 1, content))
      recurse (source.depth + 1) artifact content (hrecurse artifact content)
      (recorded source.parent member (source.depth + 1) artifact content result u)
      (List.mem_append_right _ (List.mem_singleton_self _))
    rw [← hfinal] at hbelow
    have hrecorded : NamedEdges env s (final (childOf env scans recurse source member) s) := by
      have hbefore : NamedEdges env s u := before.sameGraph.namedEdges
      have hobjects : u.trace.objects <+:
          (final (childOf env scans recurse source member) s).trace.objects :=
        (List.prefix_append _ _).trans hbelow.objects
      refine hbefore.trans ⟨hobjects, fun hclear edge hedge => ?_⟩
      rcases hbelow.named hclear edge hedge with hmem | hnamed
      · rcases List.mem_append.1 hmem with hmem | hlast
        · exact .inl hmem
        · obtain rfl := List.mem_singleton.1 hlast
          have hclearSource := hclear _
            (hobjects.subset (hbefore.objects.subset hsource)) hdepth
          exact .inr fun hedge => safeName_of_mem_object hclearSource hmember hedge
      · exact .inr hnamed
    exact hrecorded

/-- By induction on the fuel: an object in the graph hands on what has an accepted name. -/
lemma processObject_namedEdges {scans : Scans ω} (fuel depth : ℕ) (parent : InputArtifact)
    (content : Bytes) :
    Moves (NamedFrom env (depth, content)) (processObject env scans fuel depth parent content) := by
  induction fuel generalizing depth parent content with
  | zero =>
      have hdeep : Takes (fun _ => pure ()) []
          (decode .stack (.error recursionError) : Extract ω Unit) := .decode _ _
      exact fun s _ => (hdeep.asides s).sameGraph.namedEdges
  | succ fuel ih =>
      rcases Nat.lt_or_ge depth env.budget.maxRecursionDepth with hdepth | hdepth
      · exact (objectBody_takes env scans (processObject env scans fuel)
          ⟨parent, depth, content⟩).moves (namedFrom_respected _) fun member hmember =>
            childOf_namedEdges hdepth (fun artifact content => ih _ _ _) hmember
      · have hdeep : Takes (fun _ => pure ()) [] (objectBody env scans
            (processObject env scans fuel) ⟨parent, depth, content⟩) :=
          Takes.rules.objectBody_of_deep hdepth
        exact fun s _ => (hdeep.asides s).sameGraph.namedEdges

lemma process_namedEdges (env : ExtractEnv) (scans : Scans ω) (source : Bytes)
    (s : ExtractState ω) :
    NamedEdges env (begin source s) (final (process env scans source) s) := by
  have hobject := @processObject_namedEdges ω env scans (recursionFuel env) 0
    s.job.inputArtifact source (begin source s)
  obtain ⟨t, hrest, hfinal⟩ :=
    process_final (namedFrom_respected (0, source)) env scans source s
  have hroot : (0, source) ∈ (begin source s).trace.objects := List.mem_singleton_self _
  have hnamed := (hobject hroot).trans (hrest ((hobject hroot).objects.subset hroot))
  rw [hfinal]
  exact ⟨hnamed.objects, hnamed.named⟩

/-- An extraction that no exception ends has settled every object. -/
lemma process_settled {scans : Scans ω} {source : Bytes} {s : ExtractState ω}
    (hreturns : Returns (processBody env scans source) (begin source s))
    {object : ℕ × Bytes} (hobject : object ∈ (final (process env scans source) s).trace.objects)
    (hdepth : object.1 < env.budget.maxRecursionDepth)
    (hdocument : documentOf env object.2 = none) (hrejects : Rejects env object.2) :
    LeftOut (final (process env scans source) s) := by
  obtain ⟨⟨⟩, t, hbody⟩ := returns_iff.1 hreturns
  rw [final_of_ok (process_of_ok hbody)] at hobject ⊢
  obtain ⟨⟨⟩, u, hprocess, hend⟩ := bind_eq_ok.1 (show (processObject env scans
    (recursionFuel env) 0 s.job.inputArtifact source >>= fun _ => conclude) (begin source s) =
      .ok () t from hbody)
  obtain ⟨hsettles, hroot⟩ := (processObject_settles _ _ _ _).of_ok hprocess
  have hconclude : Carries (Settles Grows (Settled env)) (conclude : Extract ω Unit) :=
    Ends.get_bind fun _ => Ends.ite (fun _ => carries_perform settled_respected rfl) fun _ =>
      Ends.pure settled_respected.composes _
  have hconcludes := hconclude.of_ok hend
  obtain ⟨found, hfound, hsettled⟩ := (settled_respected.trans _ _ _ hsettles hconcludes).objects
  change LeftOut t
  have hmem : object ∈ (0, source) :: found := by
    change object ∈ t.trace.objects at hobject
    rw [hfound] at hobject
    exact hobject
  rcases List.mem_cons.1 hmem with rfl | hmem
  · exact (hroot hdepth hdocument hrejects).mono hconcludes.grows
  · exact hsettled object hmem hdepth hdocument hrejects

end Events

/-- What is promised of the members with names that are not accepted: none of them joins the graph,
and where there is one an event is recorded. -/
def MembersNamed (env : ExtractEnv) (s t : ExtractState ω) : Prop :=
  (∀ edge ∈ t.job.relationships, edge ∈ s.job.relationships ∨
      (memberEdge edge.relationship = true → safeName env edge.memberName = true)) ∧
    ∀ object ∈ t.trace.objects, object.1 < env.budget.maxRecursionDepth →
      Rejects env object.2 → t.usage.limitEvents ≠ []

/-- Accepted names lead nowhere outside their directory.  Where no document has a name that would
not be accepted, nothing with such a name is handed to `_child` or joins the graph, and in an
extraction that no exception ends an event says that a member was left out. -/
theorem member_names (env : ExtractEnv) (scans : Scans ω) (source : Bytes) (s : ExtractState ω)
    (hclear : Clear env (final (process env scans source) s)) :
    (∀ name, safeName env name = true → ∀ base, Inside base name ∧ Inside base (slashes name)) ∧
      (∀ recurse object u, NamesClear env object.content → ∃ trace,
        Run (Handles (childOf env scans recurse object)) u trace
            (final (objectBody env scans recurse object) u) ∧
          ∀ member ∈ visited trace, memberEdge member.relation = true →
            safeName env member.name = true) ∧
      (∀ edge ∈ (final (process env scans source) s).job.relationships,
        edge ∈ s.job.relationships ∨
          (memberEdge edge.relationship = true → safeName env edge.memberName = true)) ∧
      (Returns (processBody env scans source) (begin source s) →
        MembersNamed env s (final (process env scans source) s) ∧
          ∀ object ∈ (final (process env scans source) s).trace.objects,
            object.1 < env.budget.maxRecursionDepth → Rejects env object.2 →
              LeftOut (final (process env scans source) s)) := by
  have hedges := (process_namedEdges env scans source s).named hclear
  refine ⟨fun name hsafe => safeName_inside hsafe, fun recurse object u hobject => ?_, hedges,
    fun hreturns => ?_⟩
  · obtain ⟨trace, hrun, hvisited⟩ := objectBody_takes env scans recurse object u
    exact ⟨trace, hrun, fun member hmember =>
      safeName_of_mem_object hobject (hvisited.subset hmember)⟩
  · have hleft : ∀ object ∈ (final (process env scans source) s).trace.objects,
        object.1 < env.budget.maxRecursionDepth → Rejects env object.2 →
          LeftOut (final (process env scans source) s) := by
      intro object hobject hdepth hrejects
      refine process_settled hreturns hobject hdepth ?_ hrejects
      cases hdocument : documentOf env object.2 with
      | none => rfl
      | some document =>
          exact absurd hrejects (hclear object hobject hdepth document hdocument).2
    refine ⟨⟨hedges, fun object hobject hdepth hrejects => ?_⟩, hleft⟩
    obtain ⟨event, -, hmem⟩ := hleft object hobject hdepth hrejects
    exact List.ne_nil_of_mem hmem

/-- A ZIP archive of the files `a` and `../x`. -/
def climbingZip : Bytes :=
  [80, 75, 3, 4, 20, 0, 0, 0, 0, 0, 0, 0, 33, 0, 139, 158, 217, 211, 1, 0, 0, 0, 1, 0, 0, 0, 1,
   0, 0, 0, 97, 65, 80, 75, 3, 4, 20, 0, 0, 0, 0, 0, 0, 0, 33, 0, 139, 158, 217, 211, 1, 0, 0,
   0, 1, 0, 0, 0, 4, 0, 0, 0, 46, 46, 47, 120, 65, 80, 75, 1, 2, 20, 0, 20, 0, 0, 0, 0, 0, 0,
   0, 33, 0, 139, 158, 217, 211, 1, 0, 0, 0, 1, 0, 0, 0, 1, 0, 0, 0, 0, 0, 0, 0, 0, 0, 0, 0,
   128, 1, 0, 0, 0, 0, 97, 80, 75, 1, 2, 20, 0, 20, 0, 0, 0, 0, 0, 0, 0, 33, 0, 139, 158, 217,
   211, 1, 0, 0, 0, 1, 0, 0, 0, 4, 0, 0, 0, 0, 0, 0, 0, 0, 0, 0, 0, 128, 1, 32, 0, 0, 0, 46,
   46, 47, 120, 80, 75, 5, 6, 0, 0, 0, 0, 2, 0, 2, 0, 97, 0, 0, 0, 67, 0, 0, 0, 0, 0]

/-- Decoders for it. -/
def climbingEnv : ExtractEnv :=
  { ExtractEnv.plain with
    isZipfile := fun content => .ok (content = climbingZip)
    zipInfos := fun _ => .ok <| ["a", "../x"].map fun name => ⟨PyStr.ofString name, 0, 0x1800000, 1⟩
    zipOpen := fun _ _ => .ok (.ofBytes [0x41]) }

/-- The first file joins the graph, the second is left out with an event. -/
theorem member_names_climbing :
    let t := final (process climbingEnv .silent climbingZip) (.fresh (containerJob climbingZip) ())
    t.job.relationships.map (fun edge => edge.memberName) = [PyStr.ofString "a"] ∧
      Rejects climbingEnv climbingZip ∧ LeftOut t := by
  have hrejects : Rejects climbingEnv climbingZip :=
    ⟨.zip, by decide +kernel, PyStr.ofString "../x", by decide +kernel, by decide +kernel⟩
  have hclear : Clear climbingEnv
      (final (process climbingEnv .silent climbingZip) (.fresh (containerJob climbingZip) ())) := by
    intro object _ _ document hdocument
    have hnone : documentOf climbingEnv object.2 = none := by
      unfold documentOf
      rw [show climbingEnv.parseDocument object.2 = .ok none from rfl, ite_self]
    rw [hnone] at hdocument
    cases hdocument
  have hreturns : Returns (processBody climbingEnv .silent climbingZip)
      (begin climbingZip (.fresh (containerJob climbingZip) ())) := by decide +kernel
  have hobjects : (0, climbingZip) ∈ (final (process climbingEnv .silent climbingZip)
      (.fresh (containerJob climbingZip) ())).trace.objects := by decide +kernel
  have hleft := ((member_names climbingEnv .silent climbingZip
    (.fresh (containerJob climbingZip) ()) hclear).2.2.2 hreturns).2 (0, climbingZip) hobjects
  have hdepth : 0 < climbingEnv.budget.maxRecursionDepth := by decide
  exact ⟨by decide +kernel, hrejects, hleft hdepth hrejects⟩

/-- An OOXML document whose only payload has a name that leads four directories up. -/
def climbingDocx : Bytes :=
  [80, 75, 3, 4, 20, 0, 0, 0, 0, 0, 0, 0, 33, 0, 199, 28, 23, 60, 8, 0, 0, 0, 8, 0, 0, 0, 19,
   0, 0, 0, 91, 67, 111, 110, 116, 101, 110, 116, 95, 84, 121, 112, 101, 115, 93, 46, 120, 109,
   108, 60, 84, 121, 112, 101, 115, 47, 62, 80, 75, 3, 4, 20, 0, 0, 0, 0, 0, 0, 0, 33, 0, 139,
   158, 217, 211, 1, 0, 0, 0, 1, 0, 0, 0, 36, 0, 0, 0, 119, 111, 114, 100, 47, 101, 109, 98,
   101, 100, 100, 105, 110, 103, 115, 47, 46, 46, 47, 46, 46, 47, 46, 46, 47, 46, 46, 47, 101,
   118, 105, 108, 46, 98, 105, 110, 65, 80, 75, 1, 2, 20, 0, 20, 0, 0, 0, 0, 0, 0, 0, 33, 0,
   199, 28, 23, 60, 8, 0, 0, 0, 8, 0, 0, 0, 19, 0, 0, 0, 0, 0, 0, 0, 0, 0, 0, 0, 128, 1, 0, 0,
   0, 0, 91, 67, 111, 110, 116, 101, 110, 116, 95, 84, 121, 112, 101, 115, 93, 46, 120, 109,
   108, 80, 75, 1, 2, 20, 0, 20, 0, 0, 0, 0, 0, 0, 0, 33, 0, 139, 158, 217, 211, 1, 0, 0, 0, 1,
   0, 0, 0, 36, 0, 0, 0, 0, 0, 0, 0, 0, 0, 0, 0, 128, 1, 57, 0, 0, 0, 119, 111, 114, 100, 47,
   101, 109, 98, 101, 100, 100, 105, 110, 103, 115, 47, 46, 46, 47, 46, 46, 47, 46, 46, 47, 46,
   46, 47, 101, 118, 105, 108, 46, 98, 105, 110, 80, 75, 5, 6, 0, 0, 0, 0, 2, 0, 2, 0, 147, 0,
   0, 0, 124, 0, 0, 0, 0, 0]

/-- Decoders for it. -/
def climbingDocxEnv : ExtractEnv :=
  Document.withDocuments
    { ExtractEnv.plain with
      isZipfile := fun content => .ok (content = climbingDocx)
      zipInfos := fun _ =>
        .ok [⟨PyStr.ofString "[Content_Types].xml", 0, 0x1800000, 8⟩,
          ⟨PyStr.ofString "word/embeddings/../../../../evil.bin", 0, 0x1800000, 1⟩]
      zipOpen := fun _ index =>
        .ok (.ofBytes (if index = 0 then Binary.ascii "<Types/>" else [0x41])) }
    { inflate := fun _ _ => .error ⟨.zlibError, "error", "incorrect header check"⟩
      parseXml := fun _ => .ok (.node [] [])
      frames := 900 }
    .default

/-- The payload joins the graph under that name, without an event, and the job stays COMPLETE. -/
theorem climbing_payload_kept :
    let s := ExtractState.fresh (containerJob climbingDocx) ()
    let t := final (process climbingDocxEnv .silent climbingDocx) s
    kindOf climbingDocxEnv climbingDocx = .ok (some .zip) ∧
      t.job.relationships.map (fun edge => edge.memberName) =
        [PyStr.ofString "word/embeddings/../../../../evil.bin"] ∧
      t.usage.limitEvents = [] ∧ t.job.completeness = "COMPLETE" ∧
      ¬MembersNamed climbingDocxEnv s t := by
  intro s t
  have hevents : t.usage.limitEvents = [] := by decide +kernel
  have hrejects : Rejects climbingDocxEnv climbingDocx :=
    ⟨.zip, by decide +kernel, PyStr.ofString "word/embeddings/../../../../evil.bin",
      by decide +kernel, by decide +kernel⟩
  refine ⟨by decide +kernel, by decide +kernel, hevents, by decide +kernel, fun h => ?_⟩
  exact h.2 (0, climbingDocx) (by decide +kernel) (by decide) hrejects hevents

/-- A ZIP archive of the files `a` and `../x`, in which the header of `a` is damaged. -/
def tornZip : Bytes :=
  [80, 75, 0, 0, 20, 0, 0, 0, 0, 0, 0, 0, 33, 0, 139, 158, 217, 211, 1, 0, 0, 0, 1, 0, 0, 0, 1, 0,
   0, 0, 97, 65, 80, 75, 3, 4, 20, 0, 0, 0, 0, 0, 0, 0, 33, 0, 139, 158, 217, 211, 1, 0, 0, 0, 1,
   0, 0, 0, 4, 0, 0, 0, 46, 46, 47, 120, 65, 80, 75, 1, 2, 20, 0, 20, 0, 0, 0, 0, 0, 0, 0, 33, 0,
   139, 158, 217, 211, 1, 0, 0, 0, 1, 0, 0, 0, 1, 0, 0, 0, 0, 0, 0, 0, 0, 0, 0, 0, 128, 1, 0, 0,
   0, 0, 97, 80, 75, 1, 2, 20, 0, 20, 0, 0, 0, 0, 0, 0, 0, 33, 0, 139, 158, 217, 211, 1, 0, 0, 0,
   1, 0, 0, 0, 4, 0, 0, 0, 0, 0, 0, 0, 0, 0, 0, 0, 128, 1, 32, 0, 0, 0, 46, 46, 47, 120, 80, 75,
   5, 6, 0, 0, 0, 0, 2, 0, 2, 0, 97, 0, 0, 0, 67, 0, 0, 0, 0, 0]

/-- Decoders for it. -/
def tornEnv : ExtractEnv :=
  { ExtractEnv.plain with
    isZipfile := fun _ => .ok true
    zipInfos := fun _ =>
      .ok [⟨PyStr.ofString "a", 0, 0x1800000, 1⟩, ⟨PyStr.ofString "../x", 0, 0x1800000, 1⟩]
    zipOpen := fun _ index =>
      if index = 0 then
        .error ⟨.badZipFile, "BadZipFile", "Bad magic number for file header"⟩
      else .ok (.ofBytes [0x41]) }

/-- An exception ends the extraction at the first member, and no event is left of the second. -/
example : (final (process tornEnv .silent tornZip)
    (.fresh (containerJob tornZip) ())).usage.limitEvents = [] := by decide +kernel

end ContainerAnalyzer

end AVBox
