import AVBox.Analyzers.Visits
import AVBox.Lib.BreaksOff

/-!
# Members that cannot be read

The readers of the standard library may find a member of a ZIP or tar archive, or a compressed
stream, damaged when it is opened or after some of its bytes.  There is one `except` clause around
the whole recursion, so the extraction ends there: `damaged_cases` says that an extraction with
damaged members goes as the one without, up to the first damaged member that it reads, and keeps
what it has by then.  What comes later is lost, in the same archive and in all others.
-/

namespace AVBox

open Program

namespace ContainerAnalyzer

variable {ω : Type}

/-! ## Damage -/

/-- The readers of archives and of compressed streams. -/
structure Readers where
  zipOpen : Bytes → ℕ → Except Exc ByteStream
  tarExtract : Bytes → ℕ → Except Exc (Option ByteStream)
  openCompressed : Kind → Bytes → Except Exc ByteStream

/-- The same host with other readers. -/
def withReaders (env : ExtractEnv) (readers : Readers) : ExtractEnv :=
  { env with
    zipOpen := readers.zipOpen
    tarExtract := readers.tarExtract
    openCompressed := readers.openCompressed }

/-- A stream, and what is left of it when it breaks off. -/
inductive Truncated (broken : Exc → Prop) : ByteStream → ByteStream → Prop
  | intact (stream : ByteStream) : Truncated broken stream stream
  | fails {stream : ByteStream} {read rest : List Bytes} {exc : Exc}
      (chunks : stream.chunks = read ++ rest) (fault : broken exc) :
      Truncated broken stream ⟨read, some exc⟩

/-- The answer of a reader, and its answer for a damaged member. -/
inductive Damaged {α : Type} (broken : Exc → Prop) (related : α → α → Prop) :
    Except Exc α → Except Exc α → Prop
  | refused {r : Except Exc α} {exc : Exc} (fault : broken exc) :
      Damaged broken related r (.error exc)
  | failed (exc : Exc) : Damaged broken related (.error exc) (.error exc)
  | opened {a a' : α} (answer : related a a') : Damaged broken related (.ok a) (.ok a')

/-- Some members are damaged: the readers raise an exception of a certain kind for them. -/
structure Damages (broken : Exc → Prop) (env : ExtractEnv) (readers : Readers) : Prop where
  zipOpen : ∀ content index,
    Damaged broken (Truncated broken) (env.zipOpen content index) (readers.zipOpen content index)
  tarExtract : ∀ content index, Damaged broken (Option.Rel (Truncated broken))
    (env.tarExtract content index) (readers.tarExtract content index)
  openCompressed : ∀ kind content, Damaged broken (Truncated broken)
    (env.openCompressed kind content) (readers.openCompressed kind content)

/-! ## Along a run -/

/-- A run goes on from a state: what could be observed on the way stays, and the job gains. -/
structure Extends (s t : ExtractState ω) : Prop where
  points : s.trace.points <+: t.trace.points
  derivedObjects : s.job.derivedObjects <+: t.job.derivedObjects
  relationships : s.job.relationships <+: t.job.relationships
  errors : s.job.errors <+: t.job.errors

lemma Extends.refl (s : ExtractState ω) : Extends s s :=
  ⟨List.prefix_rfl, List.prefix_rfl, List.prefix_rfl, List.prefix_rfl⟩

lemma Extends.trans (s t u : ExtractState ω) (h : Extends s t) (h' : Extends t u) : Extends s u :=
  ⟨h.points.trans h'.points, h.derivedObjects.trans h'.derivedObjects,
    h.relationships.trans h'.relationships, h.errors.trans h'.errors⟩

lemma extends_apply (write : Write) (s : ExtractState ω) : Extends s (write.apply s) := by
  have hpoints : s.trace.points <+: (write.apply s).trace.points := by
    rw [apply_points]
    exact List.prefix_append _ _
  cases write with
  | errors texts => exact ⟨hpoints, List.prefix_rfl, List.prefix_rfl, List.prefix_append _ _⟩
  | derived object content =>
      exact ⟨hpoints, List.prefix_append _ _, List.prefix_rfl, List.prefix_rfl⟩
  | related relationship =>
      exact ⟨hpoints, List.prefix_rfl, List.prefix_append _ _, List.prefix_rfl⟩
  | _ => exact ⟨hpoints, List.prefix_rfl, List.prefix_rfl, List.prefix_rfl⟩

/-- A damaged member has been read: the job is as it was. -/
def Stops (broken : Exc → Prop) (exc : Exc) (s t : ExtractState ω) : Prop :=
  broken exc ∧ t.job = s.job

/-- A part of an extraction, and the same part with damaged members. -/
abbrev Breaks {α : Type} (broken : Exc → Prop) (x x' : Extract ω α) : Prop :=
  BreaksOff Extends (Stops broken) x x'

section Parts

variable {α : Type}

lemma moves_perform (write : Write) : Moves Extends (perform write : Extract ω Unit) :=
  Moves.modify (extends_apply write)

lemma moves_decode (site : DecodeSite) (r : Except Exc α) :
    Moves Extends (decode site r : Extract ω α) := by
  cases r with
  | ok a => exact Moves.pure Extends.refl a
  | error exc =>
      exact Moves.bind Extends.trans (moves_perform _) fun _ => Moves.throw Extends.refl exc

lemma moves_guarded {site : DecodeSite} {r : Except Exc α} {recover : Exc → Extract ω α}
    (h : ∀ exc, Moves Extends (recover exc)) : Moves Extends (guarded site r recover) :=
  Moves.tryCatch Extends.trans (moves_decode site r) fun exc =>
    Moves.ite (h exc) (Moves.throw Extends.refl exc)

lemma moves_onScans (x : EStateM Exc ω α) : Moves Extends (onScans x : Extract ω α) := by
  intro s
  simp only [final, onScans, get_bind_apply]
  cases x s.scans with
  | ok a scans => exact ⟨List.prefix_rfl, List.prefix_rfl, List.prefix_rfl, List.prefix_rfl⟩
  | error exc scans =>
      have hset : Extends s { s with scans := scans } :=
        ⟨List.prefix_rfl, List.prefix_rfl, List.prefix_rfl, List.prefix_rfl⟩
      exact hset.trans _ _ _ (extends_apply (.failed .scan exc) _)

/-- Every write respects the order. -/
lemma extends_files : FileRules fun _ x => Moves (Extends (ω := ω)) x :=
  moves_files Extends.refl Extends.trans fun write _ => extends_apply write

variable {broken : Exc → Prop}

/-- An exception leaves a reader. -/
lemma breaks_refused {site : DecodeSite} {exc : Exc} (h : broken exc) {x : Extract ω α}
    (hmoves : Moves Extends x) {β : Type} (f : β → Extract ω α) :
    Breaks broken x (decode site (.error exc) >>= f) :=
  BreaksOff.stopped Extends.refl hmoves fun s => ⟨exc, (Write.failed site exc).apply s, rfl, h, rfl⟩

/-- A reader is asked, and the program goes on with its answer. -/
lemma breaks_decode {β : Type} {related : β → β → Prop} {site : DecodeSite}
    {r r' : Except Exc β} (h : Damaged broken related r r') (hrefl : ∀ a, related a a)
    {f f' : β → Extract ω α} (hf : ∀ a a', related a a' → Breaks broken (f a) (f' a')) :
    Breaks broken (decode site r >>= f) (decode site r' >>= f') := by
  cases h with
  | refused fault =>
      refine breaks_refused fault (Moves.bind Extends.trans (moves_decode site r) fun a => ?_) f'
      exact (hf a a (hrefl a)).moves
  | failed exc =>
      refine ⟨Moves.bind Extends.trans (moves_decode site _) fun a => (hf a a (hrefl a)).moves,
        fun s => .inl rfl⟩
  | opened answer => exact hf _ _ answer

end Parts

section Materialize

variable {env : ExtractEnv} {readers : Readers} {broken : Exc → Prop}

/-- The chunks are read by the budget and the clock. -/
lemma readChunks_withReaders (parentSize : ℕ) (fault : Option Exc) (chunks : List Bytes)
    (content : Bytes) :
    (readChunks (withReaders env readers) parentSize fault chunks content :
      Extract ω (Option Bytes)) = readChunks env parentSize fault chunks content := by
  induction chunks generalizing content with
  | nil => rfl
  | cons chunk chunks ih =>
      simp only [readChunks, ih]
      rfl

/-- The chunks up to the damage are read as they are without it. -/
lemma readChunks_breaks {parentSize : ℕ} {fault : Option Exc} {read rest : List Bytes} {exc : Exc}
    (h : broken exc) (content : Bytes) :
    Breaks broken
      (readChunks env parentSize fault (read ++ rest) content : Extract ω (Option Bytes))
      (readChunks env parentSize (some exc) read content) := by
  induction read generalizing content with
  | nil => exact breaks_refused h (extends_files.readChunks _ _ _ _) _
  | cons chunk read ih =>
      refine BreaksOff.get_bind fun s => BreaksOff.bind Extends.trans (.same (moves_perform _))
        fun _ => ?_
      refine BreaksOff.bind Extends.trans (.same extends_files.expired) fun late => .ite ?_ ?_
      · exact .same <| Moves.bind Extends.trans (moves_perform _) fun _ => Moves.pure Extends.refl _
      · refine BreaksOff.get_bind fun s => ?_
        cases chunkLimit env s.usage parentSize content.length chunk with
        | some event =>
            exact .same <| Moves.bind Extends.trans (moves_perform _) fun _ =>
              Moves.pure Extends.refl _
        | none => exact BreaksOff.bind Extends.trans (.same (moves_perform _)) fun _ => ih _

lemma writeChild_breaks {stream stream' : ByteStream} (h : Truncated broken stream stream')
    (parentSize number : ℕ) :
    Breaks broken (writeChild env stream parentSize number : Extract ω (Option Bytes))
      (writeChild (withReaders env readers) stream' parentSize number) := by
  have hread : Breaks broken
      (readChunks env parentSize stream.fault stream.chunks [] : Extract ω (Option Bytes))
      (readChunks (withReaders env readers) parentSize stream'.fault stream'.chunks []) := by
    rw [readChunks_withReaders]
    cases h with
    | intact => exact .same (extends_files.readChunks _ _ _ _)
    | fails chunks fault =>
        rw [chunks]
        exact readChunks_breaks fault []
  refine BreaksOff.bind Extends.trans hread fun content => .same ?_
  cases content with
  | none => exact Moves.bind Extends.trans (moves_perform _) fun _ => Moves.pure Extends.refl _
  | some content =>
      refine Moves.bind Extends.trans (moves_decode _ _) fun _ => ?_
      exact Moves.bind Extends.trans (moves_perform _) fun _ => Moves.pure Extends.refl _

lemma materialize_breaks {stream stream' : ByteStream} (h : Truncated broken stream stream')
    (parentSize : ℕ) :
    Breaks broken (materialize env stream parentSize : Extract ω (Option Bytes))
      (materialize (withReaders env readers) stream' parentSize) := by
  refine BreaksOff.get_bind fun s => ?_
  refine BreaksOff.bind Extends.trans (.same (moves_decode _ _)) fun _ => ?_
  refine BreaksOff.bind Extends.trans (.same (moves_perform _)) fun _ => ?_
  refine BreaksOff.rethrow Extends.trans (writeChild_breaks h _ _) (fun exc => ?_) ?_
  · exact Moves.bind Extends.trans (moves_perform _) fun _ => Moves.throw Extends.refl exc
  · rintro exc u t ⟨hbroken, hjob⟩
    exact ⟨Write.unlinked.apply t, rfl, hbroken, hjob⟩

/-! ## A child -/

variable {scans : Scans ω} {recurse recurse' : Recurse ω}

lemma enterChild_breaks (hrecurse : ∀ d a c, Breaks broken (recurse d a c) (recurse' d a c))
    (parent : InputArtifact) {stream stream' : ByteStream} (name : PyStr) (index : ℕ)
    (relation : Relation) (depth number : ℕ) (content : Bytes) :
    Breaks broken
      (enterChild env scans recurse parent ⟨stream, name, index, relation⟩ depth number content)
      (enterChild (withReaders env readers) scans recurse' parent
        ⟨stream', name, index, relation⟩ depth number content) := by
  refine BreaksOff.get_bind fun s => ?_
  refine BreaksOff.bind Extends.trans (.same (moves_perform _)) fun _ => ?_
  refine BreaksOff.bind Extends.trans (.same (moves_decode _ _)) fun artifact => ?_
  refine BreaksOff.bind Extends.trans (.same (moves_onScans _)) fun result => ?_
  refine BreaksOff.bind Extends.trans (.same (moves_perform _)) fun _ => ?_
  refine BreaksOff.bind Extends.trans (.same (moves_perform _)) fun _ => ?_
  refine BreaksOff.bind Extends.trans (.same (moves_perform _)) fun _ => .ite (.same ?_) ?_
  · refine Moves.bind Extends.trans (moves_decode _ _) fun kind => Moves.ite (moves_perform _) ?_
    exact Moves.pure Extends.refl _
  · exact hrecurse depth artifact content

lemma child_breaks (hrecurse : ∀ d a c, Breaks broken (recurse d a c) (recurse' d a c))
    (parent : InputArtifact) {stream stream' : ByteStream} (h : Truncated broken stream stream')
    (name : PyStr) (index : ℕ) (relation : Relation) (parentDepth parentSize : ℕ) :
    Breaks broken
      (child env scans recurse parent ⟨stream, name, index, relation⟩ parentDepth parentSize)
      (child (withReaders env readers) scans recurse' parent ⟨stream', name, index, relation⟩
        parentDepth parentSize) := by
  refine BreaksOff.bind Extends.trans (.same extends_files.canStartChild) fun start => .ite ?_ ?_
  · refine BreaksOff.get_bind fun s => ?_
    refine BreaksOff.bind Extends.trans (materialize_breaks h parentSize) fun content => ?_
    cases content with
    | none => exact .same (Moves.pure Extends.refl _)
    | some content => exact enterChild_breaks hrecurse parent name index relation _ _ content
  · exact .same (Moves.pure Extends.refl _)

end Materialize

/-! ## The handlers -/

/-- The visits of a member and of what is left of it. -/
def VisitsBreak (broken : Exc → Prop) (visit visit' : Visit ω) : Prop :=
  ∀ {stream stream' : ByteStream}, Truncated broken stream stream' →
    ∀ name index relation,
      Breaks broken (visit ⟨stream, name, index, relation⟩)
        (visit' ⟨stream', name, index, relation⟩)

section Handlers

variable {env : ExtractEnv} {readers : Readers} {broken : Exc → Prop} {visit visit' : Visit ω}
  (hvisit : VisitsBreak broken visit visit') {content : Bytes}

lemma moves_limitChildren (count : ℕ) :
    Moves Extends (limitChildren env count : Extract ω Unit) :=
  Moves.ite (moves_perform _) (Moves.pure Extends.refl _)

lemma eachMember_breaks {α : Type} {items : List α} {body body' : α → ℕ → Extract ω Unit}
    (h : ∀ item index, Breaks broken (body item index) (body' item index)) :
    Breaks broken (eachMember env items body)
      (eachMember (withReaders env readers) items body') := by
  refine BreaksOff.bind Extends.trans (.same (moves_limitChildren _)) fun _ => ?_
  refine BreaksOff.forEach Extends.refl Extends.trans fun item _ => ?_
  refine BreaksOff.bind Extends.trans (.same (moves_perform _)) fun _ => ?_
  refine BreaksOff.bind Extends.trans (.same extends_files.canStartChild) fun start => .ite ?_ ?_
  · exact BreaksOff.bind Extends.trans (h item.1 item.2) fun _ => .same (Moves.pure Extends.refl _)
  · exact .same (Moves.pure Extends.refl _)

lemma moves_takePartial (partially : Option Partial) :
    Moves Extends (takePartial partially : Extract ω Unit) := by
  intro s
  rw [takePartial, final, get_bind_apply]
  cases partially with
  | none => exact .refl s
  | some state => exact Moves.ite (moves_perform _) (Moves.pure Extends.refl _) s

lemma moves_skipAs (event : String) (value : Partial) :
    Moves Extends (skipAs event value : Extract ω Unit) :=
  Moves.bind Extends.trans (moves_perform _) fun _ => moves_perform _

lemma moves_refuse {α : Type} (texts : List String) (value : α) :
    Moves Extends (do
      perform (.errors texts)
      perform (.completeness .error)
      return value : Extract ω α) :=
  Moves.bind Extends.trans (moves_perform _) fun _ =>
    Moves.bind Extends.trans (moves_perform _) fun _ => Moves.pure Extends.refl _

include hvisit

lemma processDocument_breaks (document : ParsedDocument) :
    Breaks broken (processDocument env visit document)
      (processDocument (withReaders env readers) visit' document) := by
  refine BreaksOff.bind Extends.trans (.same (moves_takePartial _)) fun _ => ?_
  exact eachMember_breaks fun item index => hvisit (.intact _) _ _ _

lemma zipMember_breaks (h : Damages broken env readers) (info : ZipInfo) (index : ℕ) :
    Breaks broken (zipMember env visit content info index)
      (zipMember (withReaders env readers) visit' content info index) := by
  refine .ite (.same (moves_perform _)) (.ite (.same (moves_perform _))
    (.ite (.same (moves_perform _)) (.ite (.same (moves_perform _)) ?_)))
  exact breaks_decode (h.zipOpen content index) .intact fun stream stream' hstream =>
    hvisit hstream _ _ _

lemma tarMember_breaks (h : Damages broken env readers) (info : TarInfo) (index : ℕ) :
    Breaks broken (tarMember env visit content info index)
      (tarMember (withReaders env readers) visit' content info index) := by
  refine .ite (.same (moves_perform _)) (.ite (.same (moves_perform _))
    (.ite (.same (moves_perform _)) (.ite (.same (moves_perform _)) ?_)))
  refine breaks_decode (h.tarExtract content index) (fun stream => ?_)
    fun stream stream' hstream => ?_
  · cases stream with
    | none => exact .none
    | some stream => exact .some (.intact stream)
  · cases hstream with
    | none => exact .same (Moves.pure Extends.refl _)
    | some hstream => exact hvisit hstream _ _ _

lemma processCompressed_breaks (h : Damages broken env readers) (kind : Kind) :
    Breaks broken (processCompressed env visit kind content)
      (processCompressed (withReaders env readers) visit' kind content) := by
  refine breaks_decode (h.openCompressed kind content) .intact fun stream stream' hstream => ?_
  refine BreaksOff.bind Extends.trans (.same (moves_perform _)) fun _ => ?_
  exact hvisit hstream _ _ _

lemma partitionMember_breaks (partition : Partition) :
    Breaks broken (partitionMember env visit content partition)
      (partitionMember (withReaders env readers) visit' content partition) := by
  refine BreaksOff.bind Extends.trans (.same (moves_perform _)) fun _ => ?_
  refine BreaksOff.bind Extends.trans (.same extends_files.canStartChild) fun start => .ite ?_ ?_
  · refine .ite (.same ?_) (BreaksOff.get_bind fun s => .ite (.same ?_) ?_)
    · exact Moves.bind Extends.trans (moves_perform _) fun _ => Moves.pure Extends.refl _
    · exact Moves.bind Extends.trans (moves_perform _) fun _ => Moves.pure Extends.refl _
    refine BreaksOff.bind Extends.trans (.same (moves_decode _ _)) fun view => ?_
    refine BreaksOff.get_bind fun s' => ?_
    refine BreaksOff.bind Extends.trans (hvisit (.intact _) _ _ _) fun _ => .same ?_
    refine Moves.bind Extends.trans (fun s'' => ?_) fun _ => Moves.pure Extends.refl _
    exact Moves.ite (moves_perform _) (Moves.pure Extends.refl _) s''
  · exact .same (Moves.pure Extends.refl _)

lemma processPartitionedDisk_breaks :
    Breaks broken (processPartitionedDisk env visit content)
      (processPartitionedDisk (withReaders env readers) visit' content) := by
  refine BreaksOff.bind Extends.trans (.same (moves_guarded fun _ => ?_)) fun table => ?_
  · exact Moves.bind Extends.trans (moves_perform _) fun _ => moves_refuse _ _
  cases table with
  | none => exact .same (Moves.pure Extends.refl _)
  | some table =>
      refine BreaksOff.bind Extends.trans (.same (Moves.ite (Moves.pure Extends.refl _) ?_))
        fun _ => BreaksOff.forEach Extends.refl Extends.trans fun partition _ =>
          partitionMember_breaks hvisit partition
      exact Moves.bind Extends.trans (moves_perform _) fun _ => moves_perform _

lemma processDiskImage_breaks :
    Breaks broken (processDiskImage env visit content)
      (processDiskImage (withReaders env readers) visit' content) := by
  refine BreaksOff.bind Extends.trans (.same (moves_guarded fun _ => ?_)) fun image => ?_
  · exact Moves.bind Extends.trans (moves_perform _) fun _ => moves_refuse _ _
  cases image with
  | none => exact .same (Moves.pure Extends.refl _)
  | some image =>
      exact eachMember_breaks fun entry _ =>
        .ite (.same (moves_perform _)) (hvisit (.intact _) _ _ _)

lemma externalMember_breaks (kind : Kind) (row : ExternalMember) (index : ℕ) :
    Breaks broken (externalMember env visit kind content row index)
      (externalMember (withReaders env readers) visit' kind content row index) := by
  refine .ite (.same (moves_perform _)) (.ite (.same (Moves.pure Extends.refl _)) ?_)
  refine BreaksOff.bind Extends.trans (.same (moves_decode _ _)) fun _ =>
    .ite (.same (moves_perform _)) ?_
  refine BreaksOff.bind Extends.trans (.same (Moves.ite (moves_decode _ _) ?_)) fun stream => ?_
  · exact Moves.bind Extends.trans (moves_decode _ _) fun _ => Moves.pure Extends.refl _
  cases stream with
  | none => exact .same (moves_perform _)
  | some stream => exact hvisit (.intact _) _ _ _

lemma processExternalArchive_breaks (kind : Kind) :
    Breaks broken (processExternalArchive env visit kind content)
      (processExternalArchive (withReaders env readers) visit' kind content) := by
  have hlist : (withReaders env readers).listArchive kind content = env.listArchive kind content :=
    rfl
  unfold processExternalArchive
  rw [hlist]
  cases env.listArchive kind content with
  | unavailable => exact .same (moves_skipAs _ _)
  | notRun => exact .same (moves_skipAs _ _)
  | refused encrypted => cases encrypted <;> exact .same (moves_skipAs _ _)
  | members rows =>
      refine BreaksOff.bind Extends.trans (.same (moves_decode _ _)) fun rows => ?_
      exact eachMember_breaks fun row index => externalMember_breaks hvisit kind row index

/-- One case for each kind of container. -/
lemma processContainer_breaks (h : Damages broken env readers) (kind : Kind) :
    Breaks broken (processContainer env visit content kind)
      (processContainer (withReaders env readers) visit' content kind) := by
  cases kind with
  | corruptZip => exact .same (moves_skipAs _ _)
  | zip =>
      exact BreaksOff.bind Extends.trans (.same (moves_decode _ _)) fun _ =>
        eachMember_breaks fun info index => zipMember_breaks hvisit h info index
  | partitionedDisk => exact processPartitionedDisk_breaks hvisit
  | fat | amigaAdf => exact processDiskImage_breaks hvisit
  | tar =>
      exact BreaksOff.bind Extends.trans (.same (moves_decode _ _)) fun _ =>
        eachMember_breaks fun info index => tarMember_breaks hvisit h info index
  | gzip | bzip2 | xz => exact processCompressed_breaks hvisit h _
  | lha | iso9660 | sevenZip | cab | arj => exact processExternalArchive_breaks hvisit _

end Handlers

/-! ## Whole extractions -/

section Process

variable {env : ExtractEnv} {readers : Readers} {broken : Exc → Prop} {scans : Scans ω}

lemma objectBody_breaks (h : Damages broken env readers) {recurse recurse' : Recurse ω}
    (hrecurse : ∀ d a c, Breaks broken (recurse d a c) (recurse' d a c)) (source : Source) :
    Breaks broken (objectBody env scans recurse source)
      (objectBody (withReaders env readers) scans recurse' source) := by
  have hvisit : VisitsBreak broken (childOf env scans recurse source)
      (childOf (withReaders env readers) scans recurse' source) :=
    fun hstream name index relation => child_breaks hrecurse _ hstream name index relation _ _
  refine BreaksOff.bind Extends.trans (.same extends_files.expired) fun late =>
    .ite (.same (moves_perform _)) (.ite (.same (Moves.pure Extends.refl _)) ?_)
  refine BreaksOff.bind Extends.trans (.same (moves_guarded fun exc => moves_refuse _ _))
    fun document => ?_
  cases document with
  | some document => exact processDocument_breaks hvisit document
  | none =>
      refine BreaksOff.bind Extends.trans (.same (moves_decode _ _)) fun kind => ?_
      cases kind with
      | none => exact .same (Moves.pure Extends.refl _)
      | some kind => exact processContainer_breaks hvisit h kind

/-- The recursion, by its depth. -/
lemma processObject_breaks (h : Damages broken env readers) (fuel depth : ℕ)
    (parent : InputArtifact) (content : Bytes) :
    Breaks broken (processObject env scans fuel depth parent content)
      (processObject (withReaders env readers) scans fuel depth parent content) := by
  induction fuel generalizing depth parent content with
  | zero =>
      have hdeep : Moves Extends
          (decode .stack (.error recursionError) : Extract ω Unit) := moves_decode _ _
      exact .same hdeep
  | succ fuel ih => exact objectBody_breaks h ih ⟨parent, depth, content⟩

lemma processBody_breaks (h : Damages broken env readers) (source : Bytes) :
    Breaks broken (processBody env scans source)
      (processBody (withReaders env readers) scans source) := by
  refine BreaksOff.get_bind fun s =>
    BreaksOff.bind Extends.trans (processObject_breaks h _ _ _ _) fun _ => .same fun t => ?_
  exact Moves.ite (moves_perform _) (Moves.pure Extends.refl _) t

/-- The end of `process` adds to the job at most. -/
lemma final_process_extends (source : Bytes) (s : ExtractState ω) :
    Extends (final (processBody env scans source) (begin source s))
      (final (process env scans source) s) := by
  have hremoved (t : ExtractState ω) : Extends t (removed t) :=
    ⟨List.prefix_rfl, List.prefix_rfl, List.prefix_rfl, List.prefix_rfl⟩
  cases hend : processBody env scans source (begin source s) with
  | ok a t =>
      rw [final_of_ok hend, final_of_ok (process_of_ok hend)]
      exact hremoved t
  | error exc t =>
      have hprocess := process_of_error hend
      have hexcepted : Extends t (excepted exc t) :=
        (extends_apply _ t).trans _ _ _ (extends_apply _ _)
      rw [final_of_error hend]
      split at hprocess
      · rw [final_of_ok hprocess]
        exact hexcepted.trans _ _ _ (hremoved _)
      · rw [final_of_error hprocess]
        exact hremoved t

/-- The job that an exception leaves. -/
def stoppedJob (exc : Exc) (job : ScanJob) : ScanJob :=
  if exc.family ∈ processGuards then
    { job with
      errors := job.errors ++ [s!"container: {exc.name}: {exc.text}"]
      completeness := Partial.error.text }
  else job

/-- Damaged members are not met, or the extraction ends at the first of them: up to there it has
gone as it goes without damage, and nothing is added behind it. -/
theorem damaged_cases (env : ExtractEnv) (scans : Scans ω) {readers : Readers}
    (h : Damages broken env readers) (source : Bytes) (s : ExtractState ω) :
    process (withReaders env readers) scans source s = process env scans source s ∨
      ∃ exc u, broken exc ∧ Extends (begin source s) u ∧
        Extends u (final (process env scans source) s) ∧
        (final (process (withReaders env readers) scans source) s).job = stoppedJob exc u.job ∧
        raised (process (withReaders env readers) scans source) s =
          if exc.family ∈ processGuards then none else some exc := by
  have hbody : Breaks broken (processBody env scans source)
      (processBody (withReaders env readers) scans source) := processBody_breaks h source
  obtain hsame | ⟨exc, u, t, hrun, hbefore, ⟨hbroken, hjob⟩, hafter⟩ :=
    hbody.breaks (begin source s)
  · refine .inl ?_
    cases hend : processBody env scans source (begin source s) with
    | ok a t => rw [process_of_ok hend, process_of_ok (hsame.trans hend)]
    | error exc t => rw [process_of_error hend, process_of_error (hsame.trans hend)]
  · refine .inr ⟨exc, u, hbroken, hbefore, hafter.trans _ _ _ (final_process_extends source s), ?_⟩
    have hprocess := process_of_error hrun
    by_cases hguard : exc.family ∈ processGuards
    · rw [if_pos hguard] at hprocess
      rw [final_of_ok hprocess, stoppedJob, if_pos hguard, ← hjob]
      exact ⟨rfl, by rw [if_pos hguard]; exact returns_of_ok hprocess⟩
    · rw [if_neg hguard] at hprocess
      rw [final_of_error hprocess, stoppedJob, if_neg hguard, ← hjob]
      exact ⟨rfl, by rw [if_neg hguard, raised, hprocess]⟩

end Process

/-! ### An archive with a damaged member -/

def threeMembers : Bytes := [0x50, 0x4B, 0x03, 0x04]

/-- Decoders that find three members of one byte in that file. -/
def threeMembersEnv : ExtractEnv :=
  { ExtractEnv.plain with
    isZipfile := fun content => .ok (content = threeMembers)
    zipInfos := fun _ => .ok <| ["a", "b", "c"].map fun name => ⟨PyStr.ofString name, 0, 0, 1⟩
    zipOpen := fun _ _ => .ok (.ofBytes [0x41]) }

/-- The checksum of the second member does not fit. -/
def badSecond : Readers where
  zipOpen := fun _ index => .ok <|
    if index = 1 then ⟨[], some ⟨.badZipFile, "BadZipFile", "Bad CRC-32 for file 'b'"⟩⟩
    else .ofBytes [0x41]
  tarExtract := threeMembersEnv.tarExtract
  openCompressed := threeMembersEnv.openCompressed

lemma badSecond_damages : Damages (·.family = .badZipFile) threeMembersEnv badSecond where
  zipOpen content index := by
    by_cases h : index = 1
    · simp only [badSecond, h, if_true]
      exact .opened (.fails (List.nil_append _).symm rfl)
    · simp only [badSecond, h, if_false]
      exact .opened (.intact _)
  tarExtract content index := .failed _
  openCompressed kind content := .failed _

/-- The first of the three members is kept, the second and the third are lost. -/
theorem second_member_damaged :
    let s := ExtractState.fresh (containerJob threeMembers) ()
    let good := final (process threeMembersEnv .silent threeMembers) s
    let damaged := final (process (withReaders threeMembersEnv badSecond) .silent threeMembers) s
    good.job.derivedObjects.map (·.memberIndex) = [0, 1, 2] ∧
      damaged.job.derivedObjects.map (·.memberIndex) = [0] ∧
      ∃ exc u, exc.family = .badZipFile ∧ Extends u good ∧ damaged.job = stoppedJob exc u.job := by
  intro s good damaged
  have hgood : good.job.derivedObjects.map (·.memberIndex) = [0, 1, 2] := by decide +kernel
  have hdamaged : damaged.job.derivedObjects.map (·.memberIndex) = [0] := by decide +kernel
  refine ⟨hgood, hdamaged, ?_⟩
  obtain hsame | ⟨exc, u, hbroken, -, hafter, hjob, -⟩ :=
    damaged_cases threeMembersEnv .silent badSecond_damages threeMembers s
  · have heq : damaged = good := by
      change final _ s = final _ s
      rw [final, hsame]
      rfl
    rw [heq, hgood] at hdamaged
    cases hdamaged
  · exact ⟨exc, u, hbroken, hafter, hjob⟩

end ContainerAnalyzer

end AVBox
