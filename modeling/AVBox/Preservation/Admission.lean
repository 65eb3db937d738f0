import AVBox.Lib.Transitions
import AVBox.Preservation.Service
import Mathlib.Data.Set.Function
import Mathlib.Logic.Function.Basic

/-!
# Admissions side by side

`admit` once more, one operation of the file system at a time, for any number of calls that take
their operations in any order.  A name in the directories stands for a file, and a call writes to
the file it has opened, whatever the name stands for by then.

* `Sound` is the invariant of the runs: an `.incoming` file that a call is at work on is that
  call's alone, and holds what the call has written.
* `run_quarantine` is the content addressing of the store.
* `admits_iff` says which runs have a call that fails without an error of its own.
-/

namespace AVBox

open Transitions

namespace Admission

/-! ## Files -/

/-- A file, and whether it was written out to the disk as it is. -/
structure File where
  content : Bytes
  synced : Bool
  deriving DecidableEq

/-- The directories under `quarantine/sha256`. -/
structure Store where
  files : ℕ → File
  nextFile : ℕ
  incoming : Digest 64 → Option ℕ
  quarantine : Digest 64 → Option ℕ

/-- The directories before the first admission. -/
def Store.empty : Store where
  files := fun _ => ⟨[], false⟩
  nextFile := 0
  incoming := fun _ => none
  quarantine := fun _ => none

namespace Store

variable (store : Store) (digest : Digest 64) (file : ℕ)

/-- `temporary.open("xb")` on a name that is free. -/
def create : Store :=
  { store with
    files := Function.update store.files store.nextFile ⟨[], false⟩
    nextFile := store.nextFile + 1
    incoming := Function.update store.incoming digest (some store.nextFile) }

@[simp] lemma create_incoming :
    (store.create digest).incoming digest = some store.nextFile := Function.update_self ..

def setFile (value : File) : Store :=
  { store with files := Function.update store.files file value }

/-- `dst.write(chunk)`. -/
def write (chunk : Bytes) : Store :=
  store.setFile file ⟨(store.files file).content ++ chunk, false⟩

/-- `dst.flush()` and `os.fsync(dst.fileno())`. -/
def sync : Store := store.setFile file ⟨(store.files file).content, true⟩

/-- `os.replace(temporary, destination)`. -/
def replace : Store :=
  { store with
    incoming := Function.update store.incoming digest none
    quarantine := Function.update store.quarantine digest (some file) }

/-- Without power, a file that was not written out is left with any content at all. -/
def lose (contents : ℕ → Bytes) : Store :=
  { store with
    files := fun file =>
      if (store.files file).synced then store.files file else ⟨contents file, false⟩ }

/-- The file at `destination`, if there is one, has a content. -/
def Holds (content : Bytes) : Prop :=
  ∃ file, store.quarantine digest = some file ∧ (store.files file).content = content

end Store

/-! ## Calls -/

/-- A call of `admit`, with the content of its source. -/
structure Call where
  artifact : InputArtifact
  verdict : Verdict
  source : Bytes

/-- `quarantine_path`. -/
def Call.destination (call : Call) : Digest 64 := PreservationService.quarantinePath call.artifact

/-- What a call does next, and how it has ended. -/
inductive Point
  | verdict
  | lookup
  | makeDirectory
  | openSource
  | openTemporary
  | copy (file position : ℕ)
  | sync (file : ℕ)
  | changeMode
  | rename
  | returned (destination : Digest 64)
  | raised (exc : Exc)
  | interrupted

/-- The call has ended. -/
def Point.ended : Point → Bool
  | .returned _ | .raised _ | .interrupted => true
  | _ => false

/-- The call is at work on an `.incoming` file. -/
def Point.owns : Point → Bool
  | .copy _ _ | .sync _ | .changeMode | .rename => true
  | _ => false

/-- What `os.chmod` and `os.replace` raise when there is no such file. -/
def fileNotFound (destination : Digest 64) : Exc :=
  ⟨.osError, "FileNotFoundError",
    s!"[Errno 2] No such file or directory: '{destination.val}.incoming'"⟩

/-- The next operation of a call goes through. -/
def advance (call : Call) (store : Store) : Point → Store × Point
  | .verdict =>
      if call.verdict.positive = false then
        (store, .raised (.value "only malicious, suspicious, or PUA objects may enter quarantine"))
      else (store, .lookup)
  | .lookup =>
      if (store.quarantine call.destination).isSome then (store, .returned call.destination)
      else (store, .makeDirectory)
  | .makeDirectory => (store, .openSource)
  | .openSource => (store, .openTemporary)
  | .openTemporary =>
      if (store.incoming call.destination).isSome then
        (store, .raised (PreservationService.fileExists call.destination))
      else (store.create call.destination, .copy store.nextFile 0)
  | .copy file position =>
      let chunk := (call.source.drop position).take (1024 * 1024)
      if chunk = [] then (store, .sync file)
      else (store.write file chunk, .copy file (position + chunk.length))
  | .sync file => (store.sync file, .changeMode)
  | .changeMode =>
      if (store.incoming call.destination).isSome then (store, .rename)
      else (store, .raised (fileNotFound call.destination))
  | .rename =>
      match store.incoming call.destination with
      | some file => (store.replace call.destination file, .returned call.destination)
      | none => (store, .raised (fileNotFound call.destination))
  | point => (store, point)

/-- What an operation that does not go through leaves behind.  Of what was to be written, a part
may have been. -/
def interrupt (store : Store) (written : Bytes) : Point → Store
  | .copy file _ | .sync file => store.setFile file ⟨written, false⟩
  | _ => store

/-- A call on its way. -/
structure Thread where
  call : Call
  point : Point

/-- A call that the end of its process ends as well. -/
def Thread.kill (thread : Thread) : Thread :=
  { thread with point := if thread.point.ended then thread.point else .interrupted }

structure System where
  store : Store
  threads : ℕ → Option Thread

def System.empty : System := ⟨.empty, fun _ => none⟩

/-- Thread `id` is at a point, with the store as given. -/
def System.set (system : System) (id : ℕ) (store : Store) (call : Call) (point : Point) : System :=
  ⟨store, Function.update system.threads id (some ⟨call, point⟩)⟩

@[simp] lemma System.set_threads (system : System) (id : ℕ) (store : Store) (call : Call)
    (point : Point) : (system.set id store call point).threads id = some ⟨call, point⟩ :=
  Function.update_self ..

inductive Action
  | start (id : ℕ) (call : Call)
  | advance (id : ℕ)
  | interrupt (id : ℕ) (written : Bytes)
  | powerCut (contents : ℕ → Bytes)

/-- The steps of the calls, among them those of their environment.  A source hashes to the SHA-256
of its artifact. -/
inductive Step (sha256 : Bytes → Digest 64) (sources : Set Bytes) :
    System → Action → System → Prop
  | start {system : System} {id : ℕ} {call : Call} (free : system.threads id = none)
      (hash : sha256 call.source = call.destination) (mem : call.source ∈ sources) :
      Step sha256 sources system (.start id call) (system.set id system.store call .verdict)
  | advance {system : System} {id : ℕ} {call : Call} {point : Point}
      (running : system.threads id = some ⟨call, point⟩) (live : point.ended = false) :
      Step sha256 sources system (.advance id)
        (system.set id (Admission.advance call system.store point).1 call
          (Admission.advance call system.store point).2)
  | interrupt {system : System} {id : ℕ} {call : Call} {point : Point} {written : Bytes}
      (running : system.threads id = some ⟨call, point⟩) (live : point.ended = false)
      (part : written <+: call.source) :
      Step sha256 sources system (.interrupt id written)
        (system.set id (Admission.interrupt system.store written point) call .interrupted)
  | powerCut {system : System} (contents : ℕ → Bytes) :
      Step sha256 sources system (.powerCut contents)
        ⟨system.store.lose contents, fun id => (system.threads id).map Thread.kill⟩

variable {sha256 : Bytes → Digest 64} {sources : Set Bytes}

/-! ## The invariant of the directories -/

/-- What an admitted file is, and that no two names stand for one file. -/
structure Store.Sound (sha256 : Bytes → Digest 64) (sources : Set Bytes) (store : Store) :
    Prop where
  admitted : ∀ {digest file}, store.quarantine digest = some file →
    (store.files file).synced = true ∧ sha256 (store.files file).content = digest ∧
      (store.files file).content ∈ sources
  incoming_lt : ∀ {digest file}, store.incoming digest = some file → file < store.nextFile
  quarantine_lt : ∀ {digest file}, store.quarantine digest = some file → file < store.nextFile
  incoming_inj : ∀ {digest digest' file}, store.incoming digest = some file →
    store.incoming digest' = some file → digest = digest'
  apart : ∀ {digest digest' file}, store.incoming digest = some file →
    store.quarantine digest' ≠ some file

/-- A name that was just given a file. -/
lemma update_some_iff {names : Digest 64 → Option ℕ} {digest digest' : Digest 64} {file file' : ℕ} :
    Function.update names digest (some file) digest' = some file' ↔
      digest' = digest ∧ file = file' ∨ digest' ≠ digest ∧ names digest' = some file' := by
  by_cases h : digest' = digest
  · subst h
    simp
  · simp [h]

/-- A name that was just taken away. -/
lemma update_none_iff {names : Digest 64 → Option ℕ} {digest digest' : Digest 64} {file : ℕ} :
    Function.update names digest none digest' = some file ↔
      digest' ≠ digest ∧ names digest' = some file := by
  by_cases h : digest' = digest
  · subst h
    simp
  · simp [h]

namespace Store.Sound

variable {store : Store} {digest : Digest 64} {file : ℕ}

lemma empty : Store.Sound sha256 sources .empty where
  admitted := fun h => by cases h
  incoming_lt := fun h => by cases h
  quarantine_lt := fun h => by cases h
  incoming_inj := fun h => by cases h
  apart := fun h => by cases h

/-- Two sources with the SHA-256 of one name are one content. -/
lemma holds_unique (hsources : Set.InjOn sha256 sources) (h : store.Sound sha256 sources)
    {content : Bytes} (hholds : store.Holds digest content) {source : Bytes}
    (hhash : sha256 source = digest) (hmem : source ∈ sources) : content = source := by
  obtain ⟨file, hfile, rfl⟩ := hholds
  obtain ⟨-, hdigest, hcontent⟩ := h.admitted hfile
  exact hsources hcontent hmem (hdigest.trans hhash.symm)

lemma create (h : store.Sound sha256 sources) (digest : Digest 64) :
    (store.create digest).Sound sha256 sources where
  admitted := by
    intro digest' file hfile
    have hne : file ≠ store.nextFile := (h.quarantine_lt hfile).ne
    simpa only [Store.create, Function.update_of_ne hne] using h.admitted hfile
  incoming_lt := by
    intro digest' file hfile
    rcases update_some_iff.1 hfile with ⟨-, rfl⟩ | ⟨-, hold⟩
    · exact Nat.lt_succ_self _
    · exact (h.incoming_lt hold).trans (Nat.lt_succ_self _)
  quarantine_lt := fun hfile => (h.quarantine_lt hfile).trans (Nat.lt_succ_self _)
  incoming_inj := by
    intro digest₁ digest₂ file h₁ h₂
    rcases update_some_iff.1 h₁ with ⟨rfl, rfl⟩ | ⟨-, hold₁⟩ <;>
      rcases update_some_iff.1 h₂ with ⟨rfl, hnew⟩ | ⟨-, hold₂⟩
    · rfl
    · exact absurd (h.incoming_lt hold₂) (lt_irrefl _)
    · exact absurd (h.incoming_lt hold₁) (hnew ▸ lt_irrefl _)
    · exact h.incoming_inj hold₁ hold₂
  apart := by
    intro digest₁ digest₂ file h₁ h₂
    rcases update_some_iff.1 h₁ with ⟨-, rfl⟩ | ⟨-, hold⟩
    · exact absurd (h.quarantine_lt h₂) (lt_irrefl _)
    · exact h.apart hold h₂

/-- What is written to an `.incoming` file does not show under any other name. -/
lemma setFile (h : store.Sound sha256 sources) (hfile : store.incoming digest = some file)
    (value : File) : (store.setFile file value).Sound sha256 sources where
  admitted := by
    intro digest' file' hfile'
    have hne : file' ≠ file := by
      rintro rfl
      exact h.apart hfile hfile'
    simpa only [Store.setFile, Function.update_of_ne hne] using h.admitted hfile'
  incoming_lt := h.incoming_lt
  quarantine_lt := h.quarantine_lt
  incoming_inj := h.incoming_inj
  apart := h.apart

/-- A file that was written out may take the name that its content hashes to. -/
lemma replace (h : store.Sound sha256 sources) (hfile : store.incoming digest = some file)
    (hsynced : (store.files file).synced = true)
    (hhash : sha256 (store.files file).content = digest)
    (hmem : (store.files file).content ∈ sources) :
    (store.replace digest file).Sound sha256 sources where
  admitted := by
    intro digest' file' hfile'
    rcases update_some_iff.1 hfile' with ⟨rfl, rfl⟩ | ⟨-, hold⟩
    · exact ⟨hsynced, hhash, hmem⟩
    · exact h.admitted hold
  incoming_lt := fun hfile' => h.incoming_lt (update_none_iff.1 hfile').2
  quarantine_lt := by
    intro digest' file' hfile'
    rcases update_some_iff.1 hfile' with ⟨-, rfl⟩ | ⟨-, hold⟩
    · exact h.incoming_lt hfile
    · exact h.quarantine_lt hold
  incoming_inj := fun h₁ h₂ =>
    h.incoming_inj (update_none_iff.1 h₁).2 (update_none_iff.1 h₂).2
  apart := by
    intro digest₁ digest₂ file' h₁ h₂
    obtain ⟨hne, hincoming⟩ := update_none_iff.1 h₁
    rcases update_some_iff.1 h₂ with ⟨-, rfl⟩ | ⟨-, hold⟩
    · exact hne (h.incoming_inj hincoming hfile)
    · exact h.apart hincoming hold

lemma lose (h : store.Sound sha256 sources) (contents : ℕ → Bytes) :
    (store.lose contents).Sound sha256 sources where
  admitted := by
    intro digest file hfile
    have hadmitted := h.admitted hfile
    simpa only [Store.lose, hadmitted.1, if_true] using hadmitted
  incoming_lt := h.incoming_lt
  quarantine_lt := h.quarantine_lt
  incoming_inj := h.incoming_inj
  apart := h.apart

end Store.Sound

/-! ## The invariant of the calls -/

/-- What a call has achieved when it is at a point. -/
def Point.Reached (store : Store) (call : Call) : Point → Prop
  | .lookup | .makeDirectory | .openSource | .openTemporary => call.verdict.positive = true
  | .copy file position =>
      store.incoming call.destination = some file ∧
        (store.files file).content = call.source.take position
  | .sync file =>
      store.incoming call.destination = some file ∧ (store.files file).content = call.source
  | .changeMode | .rename =>
      ∃ file, store.incoming call.destination = some file ∧ store.files file = ⟨call.source, true⟩
  | .returned destination =>
      destination = call.destination ∧ ∃ content, store.Holds destination content
  | _ => True

/-- The `.incoming` file of a call that is at work on one. -/
lemma Point.Reached.incoming {store : Store} {call : Call} {point : Point}
    (h : point.Reached store call) (howns : point.owns = true) :
    ∃ file, store.incoming call.destination = some file := by
  cases point with
  | copy file position => exact ⟨file, h.1⟩
  | sync file => exact ⟨file, h.1⟩
  | changeMode => exact h.imp fun _ => And.left
  | rename => exact h.imp fun _ => And.left
  | verdict | lookup | makeDirectory | openSource | openTemporary | returned | raised |
    interrupted => cases howns

/-- A call notices nothing of what leaves its `.incoming` file and the admitted ones alone. -/
lemma Point.Reached.frame {store store' : Store} {call : Call} {point : Point}
    (h : point.Reached store call)
    (howned : point.owns = true → ∀ file, store.incoming call.destination = some file →
      store'.incoming call.destination = some file ∧ store'.files file = store.files file)
    (hadmitted : ∀ content, store.Holds call.destination content →
      ∃ content', store'.Holds call.destination content') : point.Reached store' call := by
  cases point with
  | copy file position =>
      obtain ⟨hincoming, hfile⟩ := howned rfl file h.1
      exact ⟨hincoming, hfile ▸ h.2⟩
  | sync file =>
      obtain ⟨hincoming, hfile⟩ := howned rfl file h.1
      exact ⟨hincoming, hfile ▸ h.2⟩
  | changeMode =>
      obtain ⟨file, hfile, hcontent⟩ := h
      obtain ⟨hincoming, hsame⟩ := howned rfl file hfile
      exact ⟨file, hincoming, hsame.trans hcontent⟩
  | rename =>
      obtain ⟨file, hfile, hcontent⟩ := h
      obtain ⟨hincoming, hsame⟩ := howned rfl file hfile
      exact ⟨file, hincoming, hsame.trans hcontent⟩
  | returned destination =>
      obtain ⟨rfl, content, hholds⟩ := h
      exact ⟨rfl, hadmitted content hholds⟩
  | lookup | makeDirectory | openSource | openTemporary => exact h
  | verdict | raised | interrupted => trivial

/-- The invariant of the runs. -/
structure Sound (sha256 : Bytes → Digest 64) (sources : Set Bytes) (system : System) : Prop where
  store : system.store.Sound sha256 sources
  source : ∀ {id call point}, system.threads id = some ⟨call, point⟩ →
    sha256 call.source = call.destination ∧ call.source ∈ sources
  reached : ∀ {id call point}, system.threads id = some ⟨call, point⟩ →
    point.Reached system.store call
  exclusive : ∀ {id id' call call' point point'}, system.threads id = some ⟨call, point⟩ →
    system.threads id' = some ⟨call', point'⟩ → point.owns = true → point'.owns = true →
      call.destination = call'.destination → id = id'

namespace Sound

variable {system : System} {id : ℕ} {call : Call} {point point' : Point} {store' : Store}
  {file : ℕ}

/-- One call moves, and perhaps the store with it. -/
lemma set (h : Sound sha256 sources system) (hstore : store'.Sound sha256 sources)
    (hsource : sha256 call.source = call.destination ∧ call.source ∈ sources)
    (hreached : point'.Reached store' call)
    (hothers : ∀ {id' other there}, id' ≠ id → system.threads id' = some ⟨other, there⟩ →
      there.Reached store' other)
    (hexclusive : point'.owns = true → ∀ {id' other there}, id' ≠ id →
      system.threads id' = some ⟨other, there⟩ → there.owns = true →
        other.destination ≠ call.destination) :
    Sound sha256 sources (system.set id store' call point') where
  store := hstore
  source := by
    intro id' call' there hthread
    simp only [System.set] at hthread
    by_cases hid : id' = id
    · subst hid
      rw [Function.update_self] at hthread
      cases hthread
      exact hsource
    · rw [Function.update_of_ne hid] at hthread
      exact h.source hthread
  reached := by
    intro id' call' there hthread
    simp only [System.set] at hthread
    by_cases hid : id' = id
    · subst hid
      rw [Function.update_self] at hthread
      cases hthread
      exact hreached
    · rw [Function.update_of_ne hid] at hthread
      exact hothers hid hthread
  exclusive := by
    intro id₁ id₂ call₁ call₂ point₁ point₂ h₁ h₂ howns₁ howns₂ hsame
    simp only [System.set] at h₁ h₂
    by_cases hid₁ : id₁ = id <;> by_cases hid₂ : id₂ = id
    · rw [hid₁, hid₂]
    · subst hid₁
      rw [Function.update_self] at h₁
      cases h₁
      rw [Function.update_of_ne hid₂] at h₂
      exact absurd hsame.symm (hexclusive howns₁ hid₂ h₂ howns₂)
    · subst hid₂
      rw [Function.update_self] at h₂
      cases h₂
      rw [Function.update_of_ne hid₁] at h₁
      exact absurd hsame (hexclusive howns₂ hid₁ h₁ howns₁)
    · rw [Function.update_of_ne hid₁] at h₁
      rw [Function.update_of_ne hid₂] at h₂
      exact h.exclusive h₁ h₂ howns₁ howns₂ hsame

/-- A call moves on and leaves the store as it is. -/
lemma stay (h : Sound sha256 sources system) (running : system.threads id = some ⟨call, point⟩)
    (hreached : point'.Reached system.store call)
    (howns : point'.owns = true → point.owns = true) :
    Sound sha256 sources (system.set id system.store call point') :=
  h.set h.store (h.source running) hreached (fun _ hthread => h.reached hthread)
    fun howns' _ _ _ hid hthread hthere hsame =>
      hid (h.exclusive hthread running hthere (howns howns') hsame)

/-- A call writes to its `.incoming` file, and the others do not notice. -/
lemma setFile (h : Sound sha256 sources system) (running : system.threads id = some ⟨call, point⟩)
    (howns : point.owns = true) (hfile : system.store.incoming call.destination = some file)
    {value : File} (hreached : point'.Reached (system.store.setFile file value) call) :
    Sound sha256 sources (system.set id (system.store.setFile file value) call point') := by
  refine h.set (h.store.setFile hfile value) (h.source running) hreached ?_ ?_
  · intro id' other there hid hthread
    refine (h.reached hthread).frame (fun hthere file' hfile' => ⟨hfile', ?_⟩) ?_
    · refine Function.update_of_ne ?_ _ _
      rintro rfl
      exact hid (h.exclusive hthread running hthere howns (h.store.incoming_inj hfile' hfile))
    · rintro content ⟨admitted, hadmitted, -⟩
      exact ⟨_, admitted, hadmitted, rfl⟩
  · intro _ id' other there hid hthread hthere hsame
    exact hid (h.exclusive hthread running hthere howns hsame)

/-- A call opens its `.incoming` file, of which there was none. -/
lemma create (h : Sound sha256 sources system) (running : system.threads id = some ⟨call, point⟩)
    (hfree : system.store.incoming call.destination = none) :
    Sound sha256 sources (system.set id (system.store.create call.destination) call
      (.copy system.store.nextFile 0)) := by
  have hnotOwner : ∀ {id' other there}, system.threads id' = some ⟨other, there⟩ →
      there.owns = true → other.destination ≠ call.destination := by
    intro id' other there hthread hthere hsame
    obtain ⟨file, hfile⟩ := (h.reached hthread).incoming hthere
    rw [hsame, hfree] at hfile
    cases hfile
  refine h.set (h.store.create _) (h.source running) ?_ ?_ fun _ _ _ _ _ => hnotOwner
  · exact ⟨Function.update_self .., by simp [Store.create]⟩
  · intro id' other there hid hthread
    refine (h.reached hthread).frame (fun hthere file hfile => ⟨?_, ?_⟩) ?_
    · exact (Function.update_of_ne (hnotOwner hthread hthere) _ _).trans hfile
    · exact Function.update_of_ne (h.store.incoming_lt hfile).ne _ _
    · rintro content ⟨admitted, hadmitted, -⟩
      exact ⟨_, admitted, hadmitted, rfl⟩

/-- A call renames its `.incoming` file, which holds all of its source. -/
lemma rename (h : Sound sha256 sources system) (running : system.threads id = some ⟨call, point⟩)
    (howns : point.owns = true) (hfile : system.store.incoming call.destination = some file)
    (hcontent : system.store.files file = ⟨call.source, true⟩) :
    Sound sha256 sources (system.set id (system.store.replace call.destination file) call
      (.returned call.destination)) := by
  obtain ⟨hhash, hmem⟩ := h.source running
  refine h.set ?_ ⟨hhash, hmem⟩ ?_ ?_ nofun
  · refine h.store.replace hfile ?_ ?_ ?_ <;> rw [hcontent] <;> assumption
  · exact ⟨rfl, _, file, Function.update_self .., rfl⟩
  · intro id' other there hid hthread
    refine (h.reached hthread).frame (fun hthere file' hfile' => ⟨?_, rfl⟩) ?_
    · refine update_none_iff.2 ⟨fun hsame => ?_, hfile'⟩
      exact hid (h.exclusive hthread running hthere howns hsame)
    · rintro content ⟨admitted, hadmitted, -⟩
      by_cases hsame : other.destination = call.destination
      · exact ⟨_, file, update_some_iff.2 (.inl ⟨hsame, rfl⟩), rfl⟩
      · exact ⟨_, admitted, update_some_iff.2 (.inr ⟨hsame, hadmitted⟩), rfl⟩

/-- What an operation that goes through preserves. -/
lemma advance (h : Sound sha256 sources system) (running : system.threads id = some ⟨call, point⟩)
    (live : point.ended = false) :
    Sound sha256 sources (system.set id (Admission.advance call system.store point).1 call
      (Admission.advance call system.store point).2) := by
  have hreached := h.reached running
  cases point with
  | verdict =>
      by_cases hpositive : call.verdict.positive = false
      · simp only [Admission.advance, if_pos hpositive]
        exact h.stay running trivial fun howns => howns
      · simp only [Admission.advance, if_neg hpositive]
        have hpositive : call.verdict.positive = true := by simpa using hpositive
        exact h.stay running hpositive fun howns => howns
  | lookup =>
      by_cases hfound : (system.store.quarantine call.destination).isSome
      · simp only [Admission.advance, if_pos hfound]
        obtain ⟨file, hfile⟩ := Option.isSome_iff_exists.1 hfound
        exact h.stay running ⟨rfl, _, file, hfile, rfl⟩ fun howns => howns
      · simp only [Admission.advance, if_neg hfound]
        exact h.stay running hreached fun howns => howns
  | makeDirectory => exact h.stay running hreached fun howns => howns
  | openSource => exact h.stay running hreached fun howns => howns
  | openTemporary =>
      by_cases htaken : (system.store.incoming call.destination).isSome
      · simp only [Admission.advance, if_pos htaken]
        exact h.stay running trivial fun howns => howns
      · simp only [Admission.advance, if_neg htaken]
        exact h.create running (by simpa using htaken)
  | copy file position =>
      obtain ⟨hfile, hcontent⟩ := hreached
      by_cases hend : (call.source.drop position).take (1024 * 1024) = []
      · simp only [Admission.advance, if_pos hend]
        refine h.stay running ⟨hfile, hcontent.trans ?_⟩ fun howns => howns
        have hlength := List.take_eq_nil_iff.1 hend
        exact List.take_of_length_le (List.drop_eq_nil_iff.1 (by simpa using hlength))
      · simp only [Admission.advance, if_neg hend]
        refine h.setFile running rfl hfile ⟨hfile, ?_⟩
        refine (congrArg File.content (Function.update_self ..)).trans ?_
        rw [hcontent, List.length_take, List.take_add, ← List.take_eq_take_min]
  | sync file =>
      obtain ⟨hfile, hcontent⟩ := hreached
      refine h.setFile running rfl hfile ⟨file, hfile, ?_⟩
      exact (Function.update_self ..).trans (by rw [hcontent])
  | changeMode =>
      by_cases hthere : (system.store.incoming call.destination).isSome
      · simp only [Admission.advance, if_pos hthere]
        exact h.stay running hreached fun howns => howns
      · simp only [Admission.advance, if_neg hthere]
        exact h.stay running trivial fun howns => by cases howns
  | rename =>
      obtain ⟨file, hfile, hcontent⟩ := hreached
      simp only [Admission.advance, hfile]
      exact h.rename running rfl hfile hcontent
  | returned | raised | interrupted => cases live

/-- What one that does not go through preserves. -/
lemma interrupt (h : Sound sha256 sources system)
    (running : system.threads id = some ⟨call, point⟩) (written : Bytes) :
    Sound sha256 sources
      (system.set id (Admission.interrupt system.store written point) call .interrupted) := by
  have hreached := h.reached running
  cases point with
  | copy file position => exact h.setFile running rfl hreached.1 trivial
  | sync file => exact h.setFile running rfl hreached.1 trivial
  | verdict | lookup | makeDirectory | openSource | openTemporary | changeMode | rename |
    returned | raised | interrupted => exact h.stay running trivial nofun

lemma kill_eq_some {thread : Option Thread}
    (h : thread.map Thread.kill = some ⟨call, point⟩) :
    thread = some ⟨call, point⟩ ∧ point.ended = true ∨
      point = .interrupted ∧ ∃ before, thread = some ⟨call, before⟩ := by
  obtain ⟨⟨call', before⟩, rfl, hkill⟩ := Option.map_eq_some_iff.1 h
  cases hended : before.ended with
  | true =>
      simp only [Thread.kill, hended, if_true] at hkill
      cases hkill
      exact .inl ⟨rfl, hended⟩
  | false =>
      simp only [Thread.kill, hended, Bool.false_eq_true, if_false] at hkill
      cases hkill
      exact .inr ⟨rfl, before, rfl⟩

lemma powerCut (h : Sound sha256 sources system) (contents : ℕ → Bytes) :
    Sound sha256 sources
      ⟨system.store.lose contents, fun id => (system.threads id).map Thread.kill⟩ where
  store := h.store.lose contents
  source := by
    intro id call point hthread
    rcases kill_eq_some hthread with ⟨hsame, -⟩ | ⟨-, before, hsame⟩ <;> exact h.source hsame
  reached := by
    intro id call point hthread
    rcases kill_eq_some hthread with ⟨hsame, hended⟩ | ⟨rfl, -⟩
    · refine (h.reached hsame).frame (fun howns => ?_) ?_
      · cases point <;> cases hended <;> cases howns
      · rintro content ⟨admitted, hadmitted, -⟩
        exact ⟨_, admitted, hadmitted, rfl⟩
    · trivial
  exclusive := by
    intro id id' call call' point point' hthread hthread' howns
    rcases kill_eq_some hthread with ⟨-, hended⟩ | ⟨rfl, -⟩
    · cases point <;> cases hended <;> cases howns
    · cases howns

/-- What a step preserves. -/
lemma step {action : Action} {system' : System} (h : Sound sha256 sources system)
    (hstep : Step sha256 sources system action system') : Sound sha256 sources system' := by
  cases hstep with
  | start free hash mem =>
      refine h.set h.store ⟨hash, mem⟩ trivial (fun _ hthread => h.reached hthread) nofun
  | advance running live => exact h.advance running live
  | interrupt running live part => exact h.interrupt running _
  | powerCut contents => exact h.powerCut contents

lemma empty : Sound sha256 sources .empty where
  store := Store.Sound.empty
  source := fun h => by cases h
  reached := fun h => by cases h
  exclusive := fun h => by cases h

/-- What a run from the empty directories preserves. -/
lemma run {trace : List (System × Action)} (h : Run (Step sha256 sources) .empty trace system) :
    Sound sha256 sources system := h.invariant step empty

end Sound

/-! ## What is admitted -/

lemma advance_quarantine {call : Call} {store : Store} {point : Point} {digest : Digest 64}
    {file : ℕ} (h : store.quarantine digest = some file) :
    ∃ file', (advance call store point).1.quarantine digest = some file' := by
  cases point with
  | verdict | lookup | openTemporary | copy | changeMode =>
      simp only [advance]
      split <;> exact ⟨file, h⟩
  | rename =>
      simp only [advance]
      split
      · next file' _ =>
          by_cases hsame : digest = call.destination
          · exact ⟨file', update_some_iff.2 (.inl ⟨hsame, rfl⟩)⟩
          · exact ⟨file, update_some_iff.2 (.inr ⟨hsame, h⟩)⟩
      · exact ⟨file, h⟩
  | makeDirectory | openSource | sync | returned | raised | interrupted => exact ⟨file, h⟩

/-- No step takes a name from an admitted file. -/
lemma Step.quarantine {system system' : System} {action : Action}
    (h : Step sha256 sources system action system') {digest : Digest 64}
    (hadmitted : ∃ content, system.store.Holds digest content) :
    ∃ content, system'.store.Holds digest content := by
  obtain ⟨content, file, hfile, -⟩ := hadmitted
  suffices hname : ∃ file, system'.store.quarantine digest = some file from
    hname.elim fun file' hfile' => ⟨_, file', hfile', rfl⟩
  cases h with
  | start => exact ⟨file, hfile⟩
  | powerCut => exact ⟨file, hfile⟩
  | advance running live => exact advance_quarantine hfile
  | @interrupt id call point written running live part => cases point <;> exact ⟨file, hfile⟩

/-- Content addressing: an admitted file is all of the source of a call, has the SHA-256 that it is
named by, and stays as it is whatever the calls do. -/
theorem run_quarantine (hsources : Set.InjOn sha256 sources) {trace later : List (System × Action)}
    {system system' : System} (h : Run (Step sha256 sources) .empty trace system)
    (hlater : Run (Step sha256 sources) system later system') {digest : Digest 64}
    {content : Bytes} (hholds : system.store.Holds digest content) :
    sha256 content = digest ∧ content ∈ sources ∧ system'.store.Holds digest content := by
  have hsound := Sound.run h
  obtain ⟨file, hfile, hcontent⟩ := id hholds
  obtain ⟨-, hhash, hmem⟩ := hsound.store.admitted hfile
  rw [hcontent] at hhash hmem
  refine ⟨hhash, hmem, ?_⟩
  obtain ⟨content', hholds'⟩ := hlater.invariant (fun h step => step.quarantine h) ⟨content, hholds⟩
  have hsound' : Sound sha256 sources system' := hlater.invariant Sound.step hsound
  rwa [hsound'.store.holds_unique hsources hholds' hhash hmem] at hholds'

/-! ## Which calls fail -/

/-- Every call with a verdict that admits its source, and with no error of its own, ends with the
source at its destination. -/
def Admits (system : System) : Prop :=
  ∀ id call point, system.threads id = some ⟨call, point⟩ → call.verdict.positive = true →
    point.ended = true → point ≠ .interrupted →
      point = .returned call.destination ∧ system.store.Holds call.destination call.source

/-- The step opens no `.incoming` file whose name is taken. -/
def Clear (taken : System × Action) : Prop :=
  ∀ id call, taken.2 = .advance id → taken.1.threads id = some ⟨call, .openTemporary⟩ →
    taken.1.store.incoming call.destination = none

/-- No call that may admit its source has raised an error of its own. -/
def Unraised (system : System) : Prop :=
  ∀ id call exc, system.threads id = some ⟨call, .raised exc⟩ → call.verdict.positive = false

lemma admits_iff_unraised (hsources : Set.InjOn sha256 sources) {system : System}
    (h : Sound sha256 sources system) : Admits system ↔ Unraised system := by
  constructor
  · intro hadmits id call exc hthread
    by_contra hpositive
    have hreturned := (hadmits id call _ hthread (by simpa using hpositive) rfl nofun).1
    cases hreturned
  · intro hunraised id call point hthread hpositive hended hown
    cases point with
    | returned destination =>
        obtain ⟨rfl, content, hholds⟩ := h.reached hthread
        obtain ⟨hhash, hmem⟩ := h.source hthread
        have hsame := h.store.holds_unique hsources hholds hhash hmem
        exact ⟨rfl, hsame ▸ hholds⟩
    | raised exc =>
        rw [hunraised id call exc hthread] at hpositive
        cases hpositive
    | interrupted => exact absurd rfl hown
    | verdict | lookup | makeDirectory | openSource | openTemporary | copy | sync | changeMode |
      rename => cases hended

lemma unraised_set_iff {system : System} {id : ℕ} {store' : Store} {call : Call} {point' : Point}
    (hlive : ∀ {call point}, system.threads id = some ⟨call, point⟩ → point.ended = false) :
    Unraised (system.set id store' call point') ↔
      Unraised system ∧ (call.verdict.positive = true → ∀ exc, point' ≠ .raised exc) := by
  constructor
  · intro h
    refine ⟨fun id' call' exc hthread => ?_, ?_⟩
    · refine h id' call' exc ?_
      have hne : id' ≠ id := by
        rintro rfl
        cases hlive hthread
      exact (Function.update_of_ne hne _ _).trans hthread
    · rintro hpositive exc rfl
      have hfalse := h id call exc (Function.update_self ..)
      rw [hpositive] at hfalse
      cases hfalse
  · rintro ⟨h, hpoint⟩ id' call' exc hthread
    simp only [System.set] at hthread
    by_cases hid : id' = id
    · subst hid
      rw [Function.update_self] at hthread
      cases hthread
      by_contra hpositive
      exact hpoint (by simpa using hpositive) exc rfl
    · rw [Function.update_of_ne hid] at hthread
      exact h id' call' exc hthread

/-- The one operation that raises an error of its own. -/
lemma advance_ne_raised_iff {system : System} (h : Sound sha256 sources system) {id : ℕ}
    {call : Call} {point : Point} (running : system.threads id = some ⟨call, point⟩)
    (live : point.ended = false) :
    (call.verdict.positive = true → ∀ exc, (advance call system.store point).2 ≠ .raised exc) ↔
      Clear (system, .advance id) := by
  have hreached := h.reached running
  have hclear : point ≠ .openTemporary → Clear (system, .advance id) := by
    intro hne id' call' haction hthread
    cases haction
    cases running.symm.trans hthread
    exact absurd rfl hne
  cases point with
  | openTemporary =>
      constructor
      · intro hraised id' call' haction hthread
        cases haction
        cases running.symm.trans hthread
        by_contra htaken
        refine hraised hreached (PreservationService.fileExists call.destination) ?_
        simp only [advance, if_pos (Option.isSome_iff_ne_none.2 htaken)]
      · intro hfree _ exc
        have hnone : system.store.incoming call.destination = none := hfree id call rfl running
        simp [advance, hnone]
  | verdict =>
      refine iff_of_true (fun hpositive exc => ?_) (hclear nofun)
      simp [advance, hpositive]
  | changeMode =>
      refine iff_of_true (fun _ exc => ?_) (hclear nofun)
      obtain ⟨file, hfile, -⟩ := hreached
      simp [advance, hfile]
  | rename =>
      refine iff_of_true (fun _ exc => ?_) (hclear nofun)
      obtain ⟨file, hfile, -⟩ := hreached
      simp [advance, hfile]
  | lookup =>
      refine iff_of_true (fun _ exc => ?_) (hclear nofun)
      simp only [advance]
      split <;> nofun
  | copy file position =>
      refine iff_of_true (fun _ exc => ?_) (hclear nofun)
      simp only [advance]
      split <;> nofun
  | makeDirectory | openSource | sync => exact iff_of_true (fun _ _ => nofun) (hclear nofun)
  | returned | raised | interrupted => cases live

lemma Step.unraised_iff {system system' : System} {action : Action}
    (h : Sound sha256 sources system) (hstep : Step sha256 sources system action system') :
    Unraised system' ↔ Unraised system ∧ Clear (system, action) := by
  cases hstep with
  | @start id call free hash mem =>
      rw [unraised_set_iff fun hthread => by cases free.symm.trans hthread]
      refine and_congr_right fun _ => iff_of_true (fun _ _ => nofun) ?_
      exact fun _ _ haction => by cases haction
  | @advance id call point running live =>
      have hlive : ∀ {call point}, system.threads id = some ⟨call, point⟩ →
          point.ended = false := fun hthread => by
        cases running.symm.trans hthread
        exact live
      rw [unraised_set_iff hlive, advance_ne_raised_iff h running live]
  | @interrupt id call point written running live part =>
      have hlive : ∀ {call point}, system.threads id = some ⟨call, point⟩ →
          point.ended = false := fun hthread => by
        cases running.symm.trans hthread
        exact live
      rw [unraised_set_iff hlive]
      refine and_congr_right fun _ => iff_of_true (fun _ _ => nofun) ?_
      exact fun _ _ haction => by cases haction
  | powerCut contents =>
      have hclear : Clear (system, .powerCut contents) := fun _ _ haction => by cases haction
      refine Iff.trans ⟨fun hunraised id call exc hthread => ?_,
        fun hunraised id call exc hthread => ?_⟩ (and_iff_left hclear).symm
      · refine hunraised id call exc ?_
        simp [hthread, Thread.kill, Point.ended]
      · rcases Sound.kill_eq_some hthread with ⟨hsame, -⟩ | ⟨hpoint, -⟩
        · exact hunraised id call exc hsame
        · cases hpoint

/-- Admission succeeds in a run, whatever is interrupted, exactly when no call of the run has come
to open its `.incoming` file while that of another call was there. -/
theorem admits_iff (hsources : Set.InjOn sha256 sources) {trace : List (System × Action)}
    {system : System} (h : Run (Step sha256 sources) .empty trace system) :
    Admits system ↔ ∀ taken ∈ trace, Clear taken := by
  rw [admits_iff_unraised hsources (Sound.run h)]
  exact h.iff_forall (I := Sound sha256 sources) Sound.step Step.unraised_iff Sound.empty
    fun _ _ _ hthread => by cases hthread

/-! ## A call on its own -/

/-- The store and the point that a call comes to when nothing else happens. -/
def Alone (call : Call) : Store × Point → Store × Point → Prop :=
  Relation.ReflTransGen fun before after =>
    before.2.ended = false ∧ after = advance call before.1 before.2

/-- What `admitSource` knows of the directories. -/
def Store.host (host : Host) (store : Store) : Host :=
  { host with
    quarantine := fun digest => (store.quarantine digest).map fun file => (store.files file).content
    incoming := fun digest => (store.incoming digest).isSome }

/-- How `admitSource` ends. -/
def Point.result (host : Host) : Point → Option (EStateM.Result Exc Host (Digest 64))
  | .returned destination => some (.ok destination host)
  | .raised exc => some (.error exc host)
  | _ => none

lemma Store.setFile_eq_self {store : Store} {file : ℕ} {value : File}
    (h : store.files file = value) : store.setFile file value = store := by
  unfold Store.setFile
  rw [← h, Function.update_eq_self]

/-- The loop copies what is left of the source. -/
lemma alone_copy (call : Call) (store : Store) (file position : ℕ)
    (hfile : store.files file = ⟨call.source.take position, false⟩) :
    Alone call (store, .copy file position)
      (store.setFile file ⟨call.source, false⟩, .sync file) := by
  induction hleft : call.source.length - position using Nat.strong_induction_on generalizing store
    position with
  | _ left ih =>
      by_cases hend : (call.source.drop position).take (1024 * 1024) = []
      · have hdone : call.source.length ≤ position := by
          simpa [List.take_eq_nil_iff] using hend
        rw [List.take_of_length_le hdone] at hfile
        rw [Store.setFile_eq_self hfile]
        exact .single ⟨rfl, by simp only [advance, if_pos hend]⟩
      · have hlength : ((call.source.drop position).take (1024 * 1024)).length =
            min (1024 * 1024) (call.source.length - position) := by
          rw [List.length_take, List.length_drop]
        have hmore : 0 < call.source.length - position := by
          by_contra hnot
          refine hend (List.take_eq_nil_iff.2 (.inr (List.drop_eq_nil_iff.2 ?_)))
          omega
        set chunk := (call.source.drop position).take (1024 * 1024) with hchunk
        have hwritten : (store.write file chunk).files file =
            ⟨call.source.take (position + chunk.length), false⟩ := by
          refine (Function.update_self ..).trans ?_
          rw [hfile, hlength, hchunk, List.take_add, ← List.length_drop, ← List.take_eq_take_min]
        have hrest := ih _ (by omega) _ _ hwritten rfl
        have hsame : (store.write file chunk).setFile file ⟨call.source, false⟩ =
            store.setFile file ⟨call.source, false⟩ := by
          simp only [Store.write, Store.setFile, Function.update_idem]
        rw [hsame] at hrest
        exact .head ⟨rfl, by simp only [advance, ← hchunk, if_neg hend]⟩ hrest

/-- The directories after a copy that nothing interfered with. -/
def Store.written (store : Store) (digest : Digest 64) (source : Bytes) : Store :=
  ((store.create digest).setFile store.nextFile ⟨source, false⟩).sync store.nextFile

def Store.copied (store : Store) (digest : Digest 64) (source : Bytes) : Store :=
  (store.written digest source).replace digest store.nextFile

section names

variable {call : Call} {store : Store} (hpositive : call.verdict.positive = true)
  (hadmitted : store.quarantine call.destination = none)

include hpositive hadmitted

lemma alone_openTemporary : Alone call (store, .verdict) (store, .openTemporary) := by
  refine .head (b := (store, .lookup)) ⟨rfl, by simp [advance, hpositive]⟩ ?_
  refine .head (b := (store, .makeDirectory)) ⟨rfl, by simp [advance, hadmitted]⟩ ?_
  refine .head (b := (store, .openSource)) ⟨rfl, rfl⟩ ?_
  exact .single ⟨rfl, rfl⟩

/-- A call that finds an `.incoming` file fails. -/
lemma alone_refused (hincoming : (store.incoming call.destination).isSome) :
    Alone call (store, .verdict)
      (store, .raised (PreservationService.fileExists call.destination)) := by
  refine (alone_openTemporary hpositive hadmitted).tail ⟨rfl, ?_⟩
  simp only [advance, if_pos hincoming]

lemma alone_opened (hincoming : store.incoming call.destination = none) :
    Alone call (store, .verdict) (store.create call.destination, .copy store.nextFile 0) := by
  refine (alone_openTemporary hpositive hadmitted).tail ⟨rfl, ?_⟩
  simp [advance, hincoming]

/-- A call that finds neither of its names copies its source. -/
lemma alone_copied (hincoming : store.incoming call.destination = none) :
    Alone call (store, .verdict)
      (store.copied call.destination call.source, .returned call.destination) := by
  have hopened := alone_opened hpositive hadmitted hincoming
  have hcopied := alone_copy call (store.create call.destination) store.nextFile 0
    (by simp [Store.create])
  have hnamed : (store.written call.destination call.source).incoming call.destination =
      some store.nextFile := Function.update_self ..
  have hsynced : Alone call (store, .verdict)
      (store.written call.destination call.source, .changeMode) :=
    (hopened.trans hcopied).tail ⟨rfl, rfl⟩
  refine (hsynced.tail (c := (store.written call.destination call.source, .rename))
    ⟨rfl, ?_⟩).tail ⟨rfl, ?_⟩
  · simp only [advance, hnamed, Option.isSome_some, if_true]
  · simp only [advance, hnamed, Store.copied]

end names

lemma copied_quarantine (store : Store) (digest : Digest 64) (source : Bytes) :
    (store.copied digest source).quarantine digest = some store.nextFile := Function.update_self ..

lemma host_copied (host : Host) {store : Store} (h : store.Sound sha256 sources)
    {digest : Digest 64} (hincoming : store.incoming digest = none) (source : Bytes) :
    (store.copied digest source).host host =
      { store.host host with
        incoming := Function.update (Function.update (store.host host).incoming digest true) digest
          false
        quarantine := Function.update (store.host host).quarantine digest (some source) } := by
  simp only [Store.host, Host.mk.injEq, true_and, and_true]
  constructor
  · funext digest'
    by_cases hsame : digest' = digest
    · subst hsame
      simp [Store.copied, Store.written, Store.replace, Store.sync, Store.setFile]
    · rw [Function.update_of_ne hsame]
      cases hfile : store.quarantine digest' with
      | none =>
          simp [Store.copied, Store.written, Store.replace, Store.sync, Store.setFile, Store.create,
            hsame, hfile]
      | some file =>
          have hne : file ≠ store.nextFile := (h.quarantine_lt hfile).ne
          simp [Store.copied, Store.written, Store.replace, Store.sync, Store.setFile, Store.create,
            hsame, hfile, hne]
  · funext digest'
    by_cases hsame : digest' = digest
    · subst hsame
      simp [Store.copied, Store.replace]
    · simp [Store.copied, Store.written, Store.replace, Store.sync, Store.setFile, Store.create,
        hsame]

/-- A call that nothing interferes with does what `admitSource` does. -/
theorem alone_admitSource (host : Host) {store : Store} (h : store.Sound sha256 sources)
    (call : Call) : ∃ store' point, Alone call (store, .verdict) (store', point) ∧
      point.result (store'.host host) =
        some (PreservationService.admitSource (fun _ => none) call.source call.artifact
          call.verdict (store.host host)) := by
  unfold PreservationService.admitSource
  rw [Program.get_bind_apply]
  by_cases hnegative : call.verdict.positive = false
  · rw [if_pos hnegative]
    refine ⟨store, .raised _, .single ⟨rfl, ?_⟩, rfl⟩
    simp only [advance, if_pos hnegative]
  rw [if_neg hnegative]
  have hpositive : call.verdict.positive = true := by simpa using hnegative
  cases hadmitted : store.quarantine call.destination with
  | some file =>
      have hfound : ((store.host host).quarantine
          (PreservationService.quarantinePath call.artifact)).isSome := by
        simpa [Store.host, Call.destination] using congrArg Option.isSome hadmitted
      rw [if_pos hfound]
      refine ⟨store, .returned call.destination, ?_, rfl⟩
      refine .head (b := (store, .lookup)) ⟨rfl, ?_⟩ (.single ⟨rfl, ?_⟩)
      · simp only [advance, if_neg hnegative]
      · simp [advance, hadmitted]
  | none =>
      have hfound : ¬((store.host host).quarantine
          (PreservationService.quarantinePath call.artifact)).isSome := by
        simpa [Store.host, Call.destination] using congrArg Option.isSome hadmitted
      rw [if_neg hfound]
      by_cases hincoming : (store.incoming call.destination).isSome
      · have htaken : (store.host host).incoming
            (PreservationService.quarantinePath call.artifact) = true := hincoming
        refine ⟨store, _, alone_refused hpositive hadmitted hincoming, ?_⟩
        simp only [Program.bind_apply, Program.raiseIf_none, if_pos htaken]
        rfl
      · have hfree : (store.host host).incoming
            (PreservationService.quarantinePath call.artifact) = false := by
          simpa [Store.host, Call.destination] using hincoming
        have hnone : store.incoming call.destination = none := by simpa using hincoming
        refine ⟨_, _, alone_copied hpositive hadmitted hnone, ?_⟩
        rw [Point.result, host_copied host h hnone]
        simp only [Program.bind_apply, Program.raiseIf_none, hfree, Bool.false_eq_true, if_false]
        rfl

lemma System.set_set (system : System) (id : ℕ) (store store' : Store) (call : Call)
    (point point' : Point) :
    (system.set id store call point).set id store' call point' =
      system.set id store' call point' := by
  simp only [System.set, Function.update_idem]

/-- The others wait while a call takes its operations. -/
lemma Alone.run {system : System} {id : ℕ} {call : Call} {point : Point} {after : Store × Point}
    (h : Alone call (system.store, point) after)
    (running : system.threads id = some ⟨call, point⟩) :
    ∃ trace, Run (Step sha256 sources) system trace (system.set id after.1 call after.2) := by
  induction h with
  | refl =>
      refine ⟨[], ?_⟩
      rw [System.set, ← running, Function.update_eq_self]
      exact .nil
  | @tail before after _ hstep ih =>
      obtain ⟨trace, hrun⟩ := ih
      obtain ⟨live, rfl⟩ := hstep
      have hadvance := hrun.snoc (.advance (Function.update_self ..) live)
      rw [System.set_set] at hadvance
      exact ⟨_, hadvance⟩

/-- A new call takes its first operations. -/
lemma Alone.run_start {system : System} {id : ℕ} {call : Call} {after : Store × Point}
    (h : Alone call (system.store, .verdict) after) (free : system.threads id = none)
    (hash : sha256 call.source = call.destination) (mem : call.source ∈ sources) :
    ∃ trace, Run (Step sha256 sources) system trace (system.set id after.1 call after.2) := by
  have hstart : Run (Step sha256 sources) system _ (system.set id system.store call .verdict) :=
    .snoc .nil (.start free hash mem)
  have hrest : ∃ trace, Run (Step sha256 sources) (system.set id system.store call .verdict) trace
      ((system.set id system.store call .verdict).set id after.1 call after.2) :=
    Alone.run h (Function.update_self ..)
  obtain ⟨trace, hrun⟩ := hrest
  rw [System.set_set] at hrun
  exact ⟨_, hstart.trans hrun⟩

/-! ## Two files -/

/-- A call for an infected file. -/
def infected (sha256 : Digest 64) (source : Bytes) : Call where
  artifact :=
    { hashes := { Hashes.empty with sha256 := sha256 }
      byteSize := source.length
      filename := "infected.bin"
      submittedFilename := none
      mediaType := "application/octet-stream"
      source := "upload" }
  verdict := .malicious
  source := source

/-- The letter A. -/
def letterCall : Call :=
  infected ⟨"559aead08264d5795d3909718cdd05abd49572e84fe55590eef31a88a08fdffd", by decide⟩ [0x41]

/-- The letters B and C. -/
def lettersCall : Call :=
  infected ⟨"768921a22b8e190c2cfafeb0688f0d58a5f76ee4c7fb369758a208c7ba5e9acb", by decide⟩
    [0x42, 0x43]

/-- SHA-256 of these two files. -/
def lettersSha256 (content : Bytes) : Digest 64 :=
  if content = letterCall.source then letterCall.destination else lettersCall.destination

/-- The sources of the calls. -/
def letterSources : Set Bytes := {letterCall.source, lettersCall.source}

lemma lettersSha256_injOn : Set.InjOn lettersSha256 letterSources := by
  rintro content (rfl | rfl) content' (rfl | rfl) h
  · rfl
  · exact absurd h (by decide)
  · exact absurd h (by decide)
  · rfl

/-- A first call is left alone, and admits the letter. -/
def admitted : System :=
  System.empty.set 0 (Store.empty.copied letterCall.destination letterCall.source) letterCall
    (.returned letterCall.destination)

/-- A second one has opened the file for its own source. -/
def copying : System :=
  admitted.set 1 (admitted.store.create lettersCall.destination) lettersCall (.copy 1 0)

/-- It is interrupted when one of its two letters is written. -/
def halfCopied : System :=
  copying.set 1 (interrupt copying.store [0x42] (.copy 1 0)) lettersCall .interrupted

lemma run_halfCopied : ∃ trace, Run (Step lettersSha256 letterSources) .empty trace halfCopied := by
  have hadmitted : ∃ trace, Run (Step lettersSha256 letterSources) .empty trace admitted :=
    Alone.run_start (alone_copied rfl rfl rfl) rfl (if_pos rfl) (.inl rfl)
  obtain ⟨trace, hadmitted⟩ := hadmitted
  have hother : lettersCall.destination ≠ letterCall.destination := by decide
  have hfree : admitted.store.quarantine lettersCall.destination = none ∧
      admitted.store.incoming lettersCall.destination = none := by
    simp [admitted, System.set, Store.copied, Store.written, Store.replace, Store.sync,
      Store.setFile, Store.create, hother, Store.empty]
  have hcopying : ∃ trace, Run (Step lettersSha256 letterSources) admitted trace copying :=
    Alone.run_start (alone_opened rfl hfree.1 hfree.2) rfl (if_neg (by decide)) (.inr rfl)
  obtain ⟨later, hcopying⟩ := hcopying
  have hinterrupt : Step lettersSha256 letterSources copying (.interrupt 1 [0x42]) halfCopied :=
    .interrupt (System.set_threads ..) rfl ⟨[0x43], rfl⟩
  exact ⟨_, (hadmitted.trans hcopying).snoc hinterrupt⟩

lemma halfCopied_holds : halfCopied.store.Holds letterCall.destination letterCall.source :=
  ⟨0, show admitted.store.quarantine letterCall.destination = some 0 from
    copied_quarantine .empty _ _, rfl⟩

/-- The power is cut. -/
def darkened : System :=
  ⟨halfCopied.store.lose fun _ => [], fun id => (halfCopied.threads id).map Thread.kill⟩

/-- The letter is still there. -/
theorem run_quarantine_letter :
    lettersSha256 letterCall.source = letterCall.destination ∧
      letterCall.source ∈ letterSources ∧
      darkened.store.Holds letterCall.destination letterCall.source := by
  obtain ⟨trace, hrun⟩ := run_halfCopied
  have hlater : Run (Step lettersSha256 letterSources) halfCopied _ darkened :=
    .snoc .nil (.powerCut fun _ => [])
  exact run_quarantine lettersSha256_injOn hrun hlater halfCopied_holds

/-- Both calls met free names, and the one that was not interrupted has admitted its source. -/
theorem admits_iff_letters : ∃ trace : List (System × Action), Admits halfCopied ∧
    (Admits halfCopied ↔ ∀ taken ∈ trace, Clear taken) ∧
    Run (Step lettersSha256 letterSources) .empty trace halfCopied := by
  obtain ⟨trace, hrun⟩ := run_halfCopied
  refine ⟨trace, fun id call point hthread hpositive hended hown => ?_,
    admits_iff lettersSha256_injOn hrun, hrun⟩
  by_cases hsecond : id = 1
  · subst hsecond
    cases (System.set_threads ..).symm.trans hthread
    exact absurd rfl hown
  have hthread' : admitted.threads id = some ⟨call, point⟩ := by
    simpa [halfCopied, copying, System.set, hsecond] using hthread
  by_cases hfirst : id = 0
  · subst hfirst
    cases (System.set_threads ..).symm.trans hthread'
    exact ⟨rfl, halfCopied_holds⟩
  · rw [show admitted.threads id = none from Function.update_of_ne hfirst _ _] at hthread'
    cases hthread'

/-! ## The empty file -/

/-- An infected file without a byte. -/
def emptyCall : Call where
  artifact :=
    { hashes := .empty
      byteSize := 0
      filename := "empty.bin"
      submittedFilename := none
      mediaType := "application/octet-stream"
      source := "upload" }
  verdict := .malicious
  source := []

def emptySha256 (_ : Bytes) : Digest 64 := Hashes.empty.sha256

/-- A first call has opened its `.incoming` file. -/
def opened : System :=
  System.empty.set 0 (Store.empty.create emptyCall.destination) emptyCall (.copy 0 0)

/-- It ends there, and a second one finds the file that it left. -/
theorem leftover_refused :
    ¬∀ (sha256 : Bytes → Digest 64) (sources : Set Bytes), Set.InjOn sha256 sources →
      ∀ trace system, Run (Step sha256 sources) .empty trace system → Admits system := by
  intro h
  have hopened : ∃ trace, Run (Step emptySha256 {[]}) .empty trace opened :=
    Alone.run_start (alone_opened rfl rfl rfl) rfl rfl rfl
  obtain ⟨trace, hrun⟩ := hopened
  have hstep : Step emptySha256 {[]} opened (.interrupt 0 [])
      (opened.set 0 (interrupt opened.store [] (.copy 0 0)) emptyCall .interrupted) :=
    .interrupt (System.set_threads ..) rfl List.nil_prefix
  set left := opened.set 0 (interrupt opened.store [] (.copy 0 0)) emptyCall .interrupted
  have hincoming : left.store.incoming emptyCall.destination = some 0 :=
    Store.create_incoming .empty emptyCall.destination
  have hsecond : ∃ trace, Run (Step emptySha256 {[]}) left trace
      (left.set 1 left.store emptyCall
        (.raised (PreservationService.fileExists emptyCall.destination))) :=
    Alone.run_start (alone_refused rfl rfl (congrArg Option.isSome hincoming)) rfl rfl rfl
  obtain ⟨later, hlater⟩ := hsecond
  have hadmits := h emptySha256 {[]} (Set.injOn_singleton _ _) _ _ ((hrun.snoc hstep).trans hlater)
  cases (hadmits 1 emptyCall _ (System.set_threads ..) rfl rfl nofun).1

end Admission

end AVBox
