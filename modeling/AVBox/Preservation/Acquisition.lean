import AVBox.Lib.Program
import AVBox.Lib.Transitions
import AVBox.Models.Common
import Mathlib.Data.Set.Function
import Mathlib.Logic.Function.Basic

/-!
# Acquisition

`acquire_one` of `bin/avbox-bootstrap.py`: one download of one artifact into the store under
`ROOT`.  A download that fails leaves its `.part` file behind, and the next one asks the server for
the bytes from there on.

* `Root` is what lies under `ROOT`, and `Visit` what a call meets at the server.
* `acquireOne_effect` is all that a call does to the artifacts and to their log.
* `acquisitions_faithful` says in which runs every logged artifact is an entity of the server.
-/

namespace AVBox

open Program Transitions

namespace Bootstrap

/-! ## The store -/

/-- A path below `ROOT/artifacts`. -/
abbrev Path := List PyStr

inductive Entry
  | directory
  | file (content : Bytes)
  deriving DecidableEq

/-- `response`, of which the log keeps a copy. -/
structure Http where
  status : ℕ
  contentType : Option PyStr
  resumedFrom : ℕ
  deriving DecidableEq

/-- A line of `logs/acquisitions.jsonl`. -/
structure Acquisition where
  artifactId : PyStr
  originalFilename : PyStr
  sourceUrl : PyStr
  http : Http
  byteSize : ℕ
  sha256 : Digest 64
  storedPath : Path
  duplicateBytes : Bool
  upstreamObjectChanged : Bool
  priorSourceSha256 : List (Digest 64)

/-- An exception: its class, and its text. -/
structure Raised where
  name : String
  text : PyStr
  deriving DecidableEq

/-- A line of `logs/failures.jsonl`. -/
structure Failure where
  artifactId : PyStr
  requestedUrl : PyStr
  httpStatus : Option ℕ
  http : Option Http
  error : Raised
  partialBytes : ℕ
  sourceRisk : Option String

/-- The files under `ROOT`.  The `.part` files in `incoming` are named by an artifact. -/
structure Root where
  incoming : PyStr → Option Bytes
  artifacts : Path → Option Entry
  acquisitions : List Acquisition
  failures : List Failure

/-- `ROOT` before the first acquisition. -/
def Root.empty : Root where
  incoming := fun _ => none
  artifacts := fun _ => none
  acquisitions := []
  failures := []

namespace Root

variable (root : Root)

/-- `path.exists()`.  The parent of a path is there when the path is looked up. -/
def pathExists (path : Path) : Bool :=
  path.getLast? = some (PyStr.ofString "..") || (root.artifacts path).isSome

/-- `incoming.stat().st_size if incoming.exists() else 0`. -/
def partSize (id : PyStr) : ℕ := ((root.incoming id).getD []).length

/-- `incoming.open("wb")`. -/
def truncate (id : PyStr) : Root :=
  { root with incoming := Function.update root.incoming id (some []) }

/-- `f.write(chunk)`. -/
def write (id : PyStr) (chunk : Bytes) : Root :=
  { root with
    incoming := Function.update root.incoming id (some ((root.incoming id).getD [] ++ chunk)) }

/-- `incoming.unlink()`. -/
def unlink (id : PyStr) : Root :=
  { root with incoming := Function.update root.incoming id none }

/-- `os.replace(incoming, dest)`. -/
def replace (id : PyStr) (dest : Path) (content : Bytes) : Root :=
  { root.unlink id with artifacts := Function.update root.artifacts dest (some (.file content)) }

end Root

/-! ## The manifest -/

/-- What `acquire_one` reads of an artifact that went through `normalize`. -/
structure Artifact where
  id : PyStr
  artifactType : Option String
  sourceRisk : Option String
  filename : PyStr
  url : PyStr
  expectedMinBytes : Option ℤ
  expectedContentTypes : List PyStr

/-- `TYPES`. -/
def types : List String :=
  ["installer", "removal-tool", "definitions", "scanner-engine", "documentation",
    "update-package", "service-pack", "patch", "rescue-media", "other"]

/-- `RISKS`. -/
def risks : List String := ["stable", "legacy", "mutable", "fragile", "dead"]

/-- `artifact_dir`. -/
def artifactDir (kind : String) : String :=
  if kind = "installer" then "installers"
  else if kind = "removal-tool" then "tools"
  else kind

/-- `Path(filename).name`. -/
def pathName (filename : PyStr) : PyStr :=
  let parts := (filename.splitOn 0x2F).filter fun part => !part.isEmpty && part ≠ [0x2E]
  (parts.getLast?).getD []

/-- `path.stem` and `path.suffix`, given the name of the path. -/
def stemSuffix (name : PyStr) : PyStr × PyStr :=
  let tail := (name.reverse.takeWhile (· ≠ 0x2E)).reverse
  let stem := name.take (name.length - tail.length - 1)
  if tail = [] ∨ stem = [] then (name, []) else (stem, 0x2E :: tail)

/-- The functions of Python's library that an acquisition goes by, and where `ROOT` is. -/
structure Environment where
  root : PyStr
  sha256 : Bytes → Digest 64
  casefold : PyStr → PyStr

variable (env : Environment) (a : Artifact)

/-- `str(dest)`. -/
def pathText (path : Path) : PyStr :=
  List.intercalate [0x2F] (env.root :: PyStr.ofString "artifacts" :: path)

/-- `ROOT/"artifacts"/artifact_dir(kind)/name`. -/
def destination (kind : String) : Path :=
  [PyStr.ofString (artifactDir kind), a.filename].filter fun part => !part.isEmpty

/-- `dest.with_name(f"{dest.stem}.{dig['sha256'][:12]}{dest.suffix}")`. -/
def withDigest (dest : Path) (digest : Digest 64) : Path :=
  let parts := stemSuffix ((dest.getLast?).getD [])
  dest.dropLast ++ [parts.1 ++ 0x2E :: (PyStr.ofString digest.val).take 12 ++ parts.2]

/-- The type of the artifact, after what `acquire_one` checks before it looks at the store. -/
def checkArtifact : Except Raised String :=
  match a.artifactType with
  | none => .error ⟨"ValueError", PyStr.ofString "invalid artifact type: None"⟩
  | some kind =>
      if kind ∉ types then
        .error ⟨"ValueError", PyStr.ofString s!"invalid artifact type: {kind}"⟩
      else if (a.sourceRisk.map fun risk => decide (risk ∈ risks)) ≠ some true then
        .error ⟨"ValueError", PyStr.ofString "invalid source_risk"⟩
      else if pathName a.filename ≠ a.filename then
        .error ⟨"ValueError", PyStr.ofString "filename must be a basename"⟩
      else
        .ok kind

/-! ## The transfer -/

/-- A response that was opened: what the calls of `r.read` come to one after the other, and what the
last one raises, unless it finds the end of the body. -/
structure Response where
  status : ℕ
  contentType : Option PyStr
  reads : List Bytes
  failure : Option Raised

/-- What `opener.open` comes to.  It raises for every status that is an error. -/
inductive Answer
  | refused (status : Option ℕ) (error : Raised)
  | opened (response : Response)

/-- The loop that writes the body. -/
def copyBody (id : PyStr) (failure : Option Raised) : List Bytes → EStateM Raised Root Unit
  | [] => raiseIf failure
  | chunk :: reads =>
      if chunk = [] then pure ()
      else do
        modify fun root => root.write id chunk
        copyBody id failure reads

/-- `mode == "ab"`. -/
def resumes (offset : ℕ) (response : Response) : Bool :=
  decide (offset ≠ 0 ∧ response.status = 206)

/-- What is done inside `with opener.open(...)`. -/
def transfer (id : PyStr) (offset : ℕ) (response : Response) : EStateM Raised Root Http := do
  if resumes offset response then
    copyBody id response.failure response.reads
    return ⟨response.status, response.contentType, offset⟩
  else
    modify fun root => root.truncate id
    copyBody id response.failure response.reads
    return ⟨response.status, response.contentType, 0⟩

/-- `append(ROOT/"logs/failures.jsonl", failure_record(...))`. -/
def recordFailure (status : Option ℕ) (http : Option Http) (error : Raised) :
    EStateM Raised Root Unit :=
  modify fun root =>
    { root with
      failures := root.failures ++
        [⟨a.id, a.url, status, http, error, root.partSize a.id, a.sourceRisk⟩] }

/-- The `try` statement. -/
def fetch (offset : ℕ) (answer : Answer) : EStateM Raised Root (Option Http) :=
  match answer with
  | .refused status error => do
      recordFailure a status none error
      return none
  | .opened response =>
      tryCatch (some <$> transfer a.id offset response) fun error => do
        recordFailure a none none error
        return none

/-! ## The checks -/

def sizeErrors (size : ℕ) : List PyStr :=
  match a.expectedMinBytes with
  | none => []
  | some minimum =>
      if (size : ℤ) < minimum then
        [PyStr.ofString s!"response size {size} below expected minimum {minimum}"]
      else []

def contentTypeErrors (http : Http) : List PyStr :=
  let contentType :=
    env.casefold (PyStr.strip ((http.contentType.getD []).takeWhile (· ≠ 0x3B)))
  let expectedTypes := a.expectedContentTypes.map env.casefold
  if expectedTypes ≠ [] ∧ contentType ∉ expectedTypes then
    [PyStr.ofString "unexpected Content-Type " ++
      if contentType = [] then PyStr.ofString "missing" else contentType]
  else []

/-- `validation_errors`. -/
def validationErrors (http : Http) (size : ℕ) : List PyStr :=
  sizeErrors a size ++ contentTypeErrors env a http

/-! ## The store of the artifact -/

/-- `path.mkdir(parents=True, exist_ok=True)`. -/
def makeDirectory (path : Path) : EStateM Raised Root Unit := do
  match (← get).artifacts path with
  | some (.file _) =>
      throw ⟨"FileExistsError", PyStr.ofString "[Errno 17] File exists: '" ++ pathText env path ++
        PyStr.ofString "'"⟩
  | _ =>
      modify fun root =>
        { root with artifacts := Function.update root.artifacts path (some .directory) }

/-- An artifact with the same digest that is still there. -/
def same (root : Root) (digest : Digest 64) : Option Acquisition :=
  root.acquisitions.find? fun event =>
    decide (event.sha256 = digest) && root.pathExists event.storedPath

/-- The second name is taken where the first one is in use. -/
def availableName (root : Root) (dest : Path) (digest : Digest 64) : Path :=
  if root.pathExists dest then withDigest dest digest else dest

/-- The move of the `.part` file, which replaces nothing. -/
def moveTo (content : Bytes) (dest : Path) : EStateM Raised Root (Path × Bool) := do
  let root ← get
  if root.pathExists dest then
    throw ⟨"RuntimeError", PyStr.ofString "refusing to overwrite " ++ pathText env dest⟩
  else
    modify fun root => root.replace a.id dest content
    return (dest, false)

/-- Where the artifact is stored, and whether it was there before. -/
def keep (kind : String) (content : Bytes) (digest : Digest 64) :
    EStateM Raised Root (Path × Bool) := do
  let root ← get
  match same root digest with
  | some event =>
      modify fun root => root.unlink a.id
      return (event.storedPath, true)
  | none =>
      makeDirectory env (destination a kind).dropLast
      let root ← get
      moveTo env a content (availableName root (destination a kind) digest)

/-- `event`, given the log before it. -/
def acquisition (events : List Acquisition) (http : Http) (size : ℕ) (digest : Digest 64)
    (stored : Path × Bool) : Acquisition :=
  let sourcePrior := events.filter fun event => event.sourceUrl = a.url
  { artifactId := a.id
    originalFilename := a.filename
    sourceUrl := a.url
    http := http
    byteSize := size
    sha256 := digest
    storedPath := stored.1
    duplicateBytes := stored.2
    upstreamObjectChanged :=
      !sourcePrior.isEmpty && sourcePrior.all fun event => event.sha256 ≠ digest
    priorSourceSha256 :=
      ((sourcePrior.map (·.sha256)).dedup).mergeSort fun d d' => decide (d.val ≤ d'.val) }

/-- What is done with a body that was received. -/
def admitBody (kind : String) (http : Http) : EStateM Raised Root Bool := do
  let root ← get
  let content := (root.incoming a.id).getD []
  let errors := validationErrors env a http content.length
  if errors ≠ [] then
    recordFailure a (some http.status) (some http)
      ⟨"ValueError", List.intercalate (PyStr.ofString "; ") errors⟩
    return false
  else
    let digest := env.sha256 content
    let stored ← keep env a kind content digest
    let event := acquisition a root.acquisitions http content.length digest stored
    modify fun root => { root with acquisitions := root.acquisitions ++ [event] }
    return true

/-- `acquire_one`. -/
def acquireOne (answer : Answer) : EStateM Raised Root Bool := do
  let kind ← lift (checkArtifact a)
  let root ← get
  match ← fetch a (root.partSize a.id) answer with
  | none => return false
  | some http => admitBody env a kind http

/-! ## What a call does to the artifacts and to their log -/

/-- Neither the artifacts nor their log have changed. -/
def Root.SameStore (root root' : Root) : Prop :=
  root'.artifacts = root.artifacts ∧ root'.acquisitions = root.acquisitions

namespace Root.SameStore

lemma refl (root : Root) : root.SameStore root := ⟨rfl, rfl⟩

lemma trans (r s t : Root) (hrs : r.SameStore s) (hst : s.SameStore t) : r.SameStore t :=
  ⟨hst.1.trans hrs.1, hst.2.trans hrs.2⟩

end Root.SameStore

/-- Every artifact is still where it was, and the log has not changed. -/
structure Root.Kept (root root' : Root) : Prop where
  files : ∀ path content, root.artifacts path = some (.file content) →
    root'.artifacts path = some (.file content)
  log : root'.acquisitions = root.acquisitions

namespace Root.Kept

variable {root root' : Root}

lemma refl (root : Root) : root.Kept root := ⟨fun _ _ hfile => hfile, rfl⟩

lemma trans (r s t : Root) (hrs : r.Kept s) (hst : s.Kept t) : r.Kept t :=
  ⟨fun path content hfile => hst.files path content (hrs.files path content hfile),
    hst.log.trans hrs.log⟩

lemma of_sameStore (h : root.SameStore root') : root.Kept root' := by
  refine ⟨fun path content hfile => ?_, h.2⟩
  rwa [h.1]

/-- An entry is made where there was no artifact. -/
lemma of_update {path : Path} {entry : Option Entry}
    (hfree : ∀ content, root.artifacts path ≠ some (.file content))
    (h : root'.artifacts = Function.update root.artifacts path entry)
    (hlog : root'.acquisitions = root.acquisitions) : root.Kept root' := by
  refine ⟨fun path' content hfile => ?_, hlog⟩
  have hne : path' ≠ path := by
    rintro rfl
    exact hfree content hfile
  rw [h, Function.update_of_ne hne]
  exact hfile

end Root.Kept

section Transfer

variable {a : Artifact} {id : PyStr} {failure : Option Raised} {reads : List Bytes}
  {root root' : Root} {response : Response} {http : Http} {offset : ℕ} {answer : Answer}

/-- What the `.part` file holds once a response has come to its end. -/
def received (part : Option Bytes) (response : Response) : Bytes :=
  (if resumes (part.getD []).length response then part.getD [] else []) ++ response.reads.flatten

lemma copyBody_moves (id : PyStr) (failure : Option Raised) (reads : List Bytes) :
    Moves Root.SameStore (copyBody id failure reads) := by
  induction reads with
  | nil => exact Moves.raiseIf Root.SameStore.refl failure
  | cons chunk reads ih =>
      rw [copyBody]
      refine Moves.ite (Moves.pure Root.SameStore.refl _) ?_
      exact Moves.bind Root.SameStore.trans (Moves.modify fun _ => ⟨rfl, rfl⟩) fun _ => ih

lemma copyBody_eq_ok (hreads : ∀ chunk ∈ reads, chunk ≠ [])
    (h : copyBody id failure reads root = .ok ⟨⟩ root') :
    failure = none ∧
      (root'.incoming id).getD [] = (root.incoming id).getD [] ++ reads.flatten := by
  induction reads generalizing root with
  | nil =>
      obtain ⟨rfl, hroot⟩ : failure = none ∧ root = root' := by
        cases failure with
        | none => exact ⟨rfl, (EStateM.Result.ok.inj h).2⟩
        | some error => cases h
      simp [hroot]
  | cons chunk reads ih =>
      obtain ⟨hchunk, hrest⟩ := List.forall_mem_cons.1 hreads
      rw [copyBody, if_neg hchunk, modify_bind_apply] at h
      obtain ⟨hfailure, hpart⟩ := ih hrest h
      refine ⟨hfailure, hpart.trans ?_⟩
      simp [Root.write]

lemma transfer_moves (id : PyStr) (offset : ℕ) (response : Response) :
    Moves Root.SameStore (transfer id offset response) := by
  have hcopy := copyBody_moves id response.failure response.reads
  have hreturn : ∀ offset, Moves Root.SameStore
      (pure ⟨response.status, response.contentType, offset⟩ : EStateM Raised Root Http) :=
    fun _ => Moves.pure Root.SameStore.refl _
  refine Moves.ite (Moves.bind Root.SameStore.trans hcopy fun _ => hreturn _) ?_
  refine Moves.bind Root.SameStore.trans (Moves.modify fun _ => ⟨rfl, rfl⟩) fun _ => ?_
  exact Moves.bind Root.SameStore.trans hcopy fun _ => hreturn _

/-- A transfer that comes to the end of the body leaves it in the `.part` file, behind what it was
added to. -/
lemma transfer_eq_ok (hreads : ∀ chunk ∈ response.reads, chunk ≠ [])
    (h : transfer id (root.partSize id) response root = .ok http root') :
    response.failure = none ∧
      (root'.incoming id).getD [] = received (root.incoming id) response := by
  unfold transfer at h
  split at h
  next hresumes =>
    obtain ⟨⟨⟩, root'', hcopy, hreturn⟩ := bind_eq_ok.1 h
    obtain ⟨-, rfl⟩ := EStateM.Result.ok.inj hreturn
    obtain ⟨hfailure, hpart⟩ := copyBody_eq_ok hreads hcopy
    exact ⟨hfailure, by rw [hpart, received, ← Root.partSize, if_pos hresumes]⟩
  next hresumes =>
    rw [modify_bind_apply] at h
    obtain ⟨⟨⟩, root'', hcopy, hreturn⟩ := bind_eq_ok.1 h
    obtain ⟨-, rfl⟩ := EStateM.Result.ok.inj hreturn
    obtain ⟨hfailure, hpart⟩ := copyBody_eq_ok hreads hcopy
    refine ⟨hfailure, ?_⟩
    rw [hpart, received, ← Root.partSize, if_neg hresumes]
    simp [Root.truncate]

lemma recordFailure_moves (status : Option ℕ) (http : Option Http) (error : Raised) :
    Moves Root.SameStore (recordFailure a status http error) :=
  Moves.modify fun _ => ⟨rfl, rfl⟩

lemma fetch_moves (a : Artifact) (offset : ℕ) (answer : Answer) :
    Moves Root.SameStore (fetch a offset answer) := by
  have hfail : ∀ status error, Moves Root.SameStore
      (do recordFailure a status none error; return (none : Option Http)) := fun status error =>
    Moves.bind Root.SameStore.trans (recordFailure_moves status none error) fun _ =>
      Moves.pure Root.SameStore.refl _
  cases answer with
  | refused status error => exact hfail status error
  | opened response =>
      refine Moves.tryCatch Root.SameStore.trans ?_ fun error => hfail none error
      rw [map_eq_pure_bind]
      exact Moves.bind Root.SameStore.trans (transfer_moves _ _ _) fun _ =>
        Moves.pure Root.SameStore.refl _

/-- A call that goes on after the `try` statement has received a body. -/
lemma fetch_eq_ok (hreads : ∀ response, answer = .opened response →
      ∀ chunk ∈ response.reads, chunk ≠ [])
    (h : fetch a (root.partSize a.id) answer root = .ok (some http) root') :
    ∃ response, answer = .opened response ∧ response.failure = none ∧
      (root'.incoming a.id).getD [] = received (root.incoming a.id) response := by
  cases answer with
  | refused status error => cases h
  | opened response =>
      rw [fetch, tryCatch_apply, map_apply] at h
      cases htransfer : transfer a.id (root.partSize a.id) response root with
      | ok http' root'' =>
          rw [htransfer] at h
          obtain ⟨-, rfl⟩ := EStateM.Result.ok.inj h
          exact ⟨response, rfl, transfer_eq_ok (hreads response rfl) htransfer⟩
      | error error root'' =>
          rw [htransfer] at h
          cases h

end Transfer

section Effect

variable {env : Environment} {a : Artifact} {kind : String} {content : Bytes} {digest : Digest 64}
  {root root' : Root} {stored : Path × Bool} {http : Http} {answer : Answer} {recorded : Bool}

/-- The file is stored, or was when an artifact with this digest was logged. -/
def Stored (root root' : Root) (content : Bytes) (digest : Digest 64) (path : Path) : Prop :=
  root'.artifacts path = some (.file content) ∨
    ∃ event ∈ root.acquisitions, event.sha256 = digest ∧ event.storedPath = path

lemma makeDirectory_moves (env : Environment) (path : Path) :
    Moves Root.Kept (makeDirectory env path) := by
  intro root
  unfold makeDirectory final
  rw [get_bind_apply]
  rcases hentry : root.artifacts path with _ | (_ | content)
  · exact .of_update (fun content => by rw [hentry]; nofun) rfl rfl
  · exact .of_update (fun content => by rw [hentry]; nofun) rfl rfl
  · exact .refl root

lemma moveTo_moves (env : Environment) (a : Artifact) (content : Bytes) (dest : Path) :
    Moves Root.Kept (moveTo env a content dest) := by
  intro root
  unfold moveTo final
  rw [get_bind_apply]
  by_cases htaken : root.pathExists dest
  · rw [if_pos htaken]
    exact .refl root
  · rw [if_neg htaken]
    refine .of_update (fun content' hfile => htaken ?_) rfl rfl
    rw [Root.pathExists, hfile]
    simp

lemma moveTo_eq_ok {dest : Path} (h : moveTo env a content dest root = .ok stored root') :
    root'.artifacts stored.1 = some (.file content) := by
  unfold moveTo at h
  rw [get_bind_apply] at h
  by_cases htaken : root.pathExists dest
  · rw [if_pos htaken] at h
    cases h
  · rw [if_neg htaken] at h
    obtain ⟨rfl, rfl⟩ := EStateM.Result.ok.inj h
    exact Function.update_self ..

lemma keep_moves (env : Environment) (a : Artifact) (kind : String) (content : Bytes)
    (digest : Digest 64) : Moves Root.Kept (keep env a kind content digest) := by
  intro root
  unfold keep
  rw [final, get_bind_apply, ← final]
  cases same root digest with
  | some event => exact .of_sameStore ⟨rfl, rfl⟩
  | none =>
      refine Moves.bind Root.Kept.trans (makeDirectory_moves env _) (fun _ root' => ?_) root
      exact moveTo_moves env a content _ root'

lemma keep_eq_ok (h : keep env a kind content digest root = .ok stored root') :
    Stored root root' content digest stored.1 := by
  unfold keep at h
  rw [get_bind_apply] at h
  cases hsame : same root digest with
  | some event =>
      rw [hsame] at h
      obtain ⟨rfl, rfl⟩ := EStateM.Result.ok.inj h
      have hdigest := List.find?_some hsame
      rw [Bool.and_eq_true, decide_eq_true_eq] at hdigest
      exact .inr ⟨event, List.mem_of_find?_eq_some hsame, hdigest.1, rfl⟩
  | none =>
      rw [hsame] at h
      obtain ⟨⟨⟩, root'', -, hmove⟩ := bind_eq_ok.1 h
      rw [get_bind_apply] at hmove
      exact .inl (moveTo_eq_ok hmove)

/-- A call logs nothing, or what it has received. -/
inductive Effect (env : Environment) (a : Artifact) (answer : Answer) (root root' : Root) : Prop
  | unlogged (kept : root.Kept root')
  | logged (response : Response) (event : Acquisition) (stored : Root)
      (opened : answer = .opened response) (whole : response.failure = none)
      (kept : root.Kept stored) (artifacts : root'.artifacts = stored.artifacts)
      (log : root'.acquisitions = root.acquisitions ++ [event])
      (holds : Stored root stored (received (root.incoming a.id) response)
        (env.sha256 (received (root.incoming a.id) response)) event.storedPath)

/-- What becomes of a body that was received. -/
lemma admit_effect (env : Environment) (a : Artifact) (kind : String) (http : Http) (root : Root) :
    root.Kept (final (admitBody env a kind http) root) ∨ ∃ event stored,
      root.Kept stored ∧ (final (admitBody env a kind http) root).artifacts = stored.artifacts ∧
        (final (admitBody env a kind http) root).acquisitions = root.acquisitions ++ [event] ∧
          Stored root stored ((root.incoming a.id).getD [])
            (env.sha256 ((root.incoming a.id).getD [])) event.storedPath := by
  unfold admitBody
  rw [final, get_bind_apply, ← final]
  by_cases herrors :
      validationErrors env a http ((root.incoming a.id).getD []).length ≠ []
  · rw [if_pos herrors]
    exact .inl (.of_sameStore ⟨rfl, rfl⟩)
  · rw [if_neg herrors]
    cases hkeep : keep env a kind ((root.incoming a.id).getD [])
        (env.sha256 ((root.incoming a.id).getD [])) root with
    | error error stored =>
        rw [final_bind_of_error hkeep, ← final_of_error hkeep]
        exact .inl (keep_moves ..)
    | ok path stored =>
        have hkept : root.Kept stored := final_of_ok hkeep ▸ keep_moves ..
        rw [final_bind_of_ok hkeep]
        refine .inr ⟨_, stored, hkept, rfl, congrArg (· ++ [_]) hkept.log, ?_⟩
        exact keep_eq_ok hkeep

/-- All that a call does to the artifacts and to their log. -/
theorem acquireOne_effect (hreads : ∀ response, answer = .opened response →
      ∀ chunk ∈ response.reads, chunk ≠ []) :
    Effect env a answer root (final (acquireOne env a answer) root) := by
  unfold acquireOne
  cases hkind : checkArtifact a with
  | error error => exact .unlogged (.refl root)
  | ok kind =>
      rw [final_bind_of_ok (lift_ok kind root), final_bind_of_ok (get_apply root)]
      have hmoves := fetch_moves a (root.partSize a.id) answer root
      cases hfetch : fetch a (root.partSize a.id) answer root with
      | error error fetched =>
          rw [final_bind_of_error hfetch, ← final_of_error hfetch]
          exact .unlogged (.of_sameStore hmoves)
      | ok result fetched =>
          rw [final_of_ok hfetch] at hmoves
          rw [final_bind_of_ok hfetch]
          cases result with
          | none => exact .unlogged (.of_sameStore hmoves)
          | some http =>
              obtain ⟨response, hopened, hwhole, hpart⟩ := fetch_eq_ok hreads hfetch
              have hkept := Root.Kept.of_sameStore hmoves
              rcases admit_effect env a kind http fetched with
                hadmit | ⟨event, stored, hstored, hartifacts, hlog, hholds⟩
              · exact .unlogged (hkept.trans _ _ _ hadmit)
              · rw [hpart] at hholds
                refine .logged response event stored hopened hwhole (hkept.trans _ _ _ hstored)
                  hartifacts (hlog.trans (by rw [hmoves.2])) ?_
                rwa [Stored, ← hmoves.2]

end Effect

/-! ## Runs -/

/-- One call, with the entity that the server has at the time. -/
structure Visit where
  entity : Bytes
  answer : Answer

/-- What a response is to carry: the entity, or what lies behind the bytes that are there. -/
def Visit.body (visit : Visit) (offset : ℕ) (response : Response) : Bytes :=
  if response.status = 206 then visit.entity.drop offset else visit.entity

/-- The server sends its entity.  However much of it has come, the connection may end. -/
def Serves (a : Artifact) (root : Root) (visit : Visit) : Prop :=
  ∀ response, visit.answer = .opened response →
    (response.status = 200 ∨ response.status = 206) ∧ (∀ chunk ∈ response.reads, chunk ≠ []) ∧
      response.reads.flatten <+: visit.body (root.partSize a.id) response

def Step (env : Environment) (a : Artifact) (root : Root) (visit : Visit) (root' : Root) : Prop :=
  Serves a root visit ∧ root' = final (acquireOne env a visit.answer) root

/-- The files of the log are there, and no other content has the digest of one of them. -/
def Intact (sha256 : Bytes → Digest 64) (events : List Acquisition) (root : Root) : Prop :=
  ∀ event ∈ events, ∃ content, root.artifacts event.storedPath = some (.file content) ∧
    ∀ other, sha256 other = event.sha256 → other = content

/-- Every artifact that the run has logged is stored as an entity that the server had. -/
def Faithful (start : Root) (trace : List (Root × Visit)) (root : Root) : Prop :=
  ∃ recorded, root.acquisitions = start.acquisitions ++ recorded ∧
    ∀ event ∈ recorded, ∃ taken ∈ trace,
      root.artifacts event.storedPath = some (.file taken.2.entity)

/-- A body that ends early is noticed, and one is added only to a beginning of the entity that it
is the rest of. -/
def Clear (a : Artifact) (taken : Root × Visit) : Prop :=
  ∀ response, taken.2.answer = .opened response →
    (response.failure = none →
      response.reads.flatten = taken.2.body (taken.1.partSize a.id) response) ∧
    (resumes (taken.1.partSize a.id) response →
      (taken.1.incoming a.id).getD [] <+: taken.2.entity)

section Runs

variable {env : Environment} {a : Artifact} {start root root' : Root} {visit : Visit}
  {trace : List (Root × Visit)}

/-- Of the calls that come to the end of a response, these are the ones that have the entity. -/
lemma received_eq_entity_iff (hserves : Serves a root visit) {response : Response}
    (hopened : visit.answer = .opened response) (hwhole : response.failure = none) :
    received (root.incoming a.id) response = visit.entity ↔ Clear a (root, visit) := by
  obtain ⟨-, -, hbody⟩ := hserves response hopened
  have hclear : Clear a (root, visit) ↔
      response.reads.flatten = visit.body (root.partSize a.id) response ∧
        (resumes (root.partSize a.id) response →
          (root.incoming a.id).getD [] <+: visit.entity) := by
    constructor
    · exact fun h => ⟨(h response hopened).1 hwhole, (h response hopened).2⟩
    · intro h response' hopened'
      cases hopened.symm.trans hopened'
      exact ⟨fun _ => h.1, h.2⟩
  rw [hclear, received, ← Root.partSize]
  by_cases hresumes : resumes (root.partSize a.id) response
  · have hstatus : response.status = 206 := (of_decide_eq_true hresumes).2
    rw [Visit.body, if_pos hstatus, if_pos hresumes]
    constructor
    · intro h
      have hpart : (root.incoming a.id).getD [] <+: visit.entity := ⟨_, h⟩
      refine ⟨List.append_cancel_left (h.trans ?_), fun _ => hpart⟩
      exact (List.prefix_iff_eq_append.1 hpart).symm
    · rintro ⟨hreads, hpart⟩
      rw [hreads]
      exact List.prefix_iff_eq_append.1 (hpart hresumes)
  · have hentity : visit.body (root.partSize a.id) response = visit.entity := by
      unfold Visit.body
      split
      next hstatus =>
        have hzero : root.partSize a.id = 0 := by
          by_contra hne
          exact hresumes (decide_eq_true ⟨hne, hstatus⟩)
        rw [hzero, List.drop_zero]
      · rfl
    rw [if_neg hresumes, List.nil_append, hentity]
    exact (and_iff_left fun h => absurd h hresumes).symm

lemma Intact.kept {sha256 : Bytes → Digest 64} {events : List Acquisition}
    (h : Intact sha256 events root)
    (hkept : ∀ path content, root.artifacts path = some (.file content) →
      root'.artifacts path = some (.file content)) : Intact sha256 events root' := by
  intro event hevent
  obtain ⟨content, hfile, hdigest⟩ := h event hevent
  exact ⟨content, hkept _ _ hfile, hdigest⟩

/-- What one call preserves. -/
lemma Step.faithful (hstep : Step env a root visit root') (hclear : Clear a (root, visit))
    (hintact : Intact env.sha256 start.acquisitions root) (h : Faithful start trace root) :
    Intact env.sha256 start.acquisitions root' ∧
      Faithful start (trace ++ [(root, visit)]) root' := by
  obtain ⟨hserves, rfl⟩ := hstep
  obtain ⟨recorded, hlog, hrecorded⟩ := h
  have heffect : Effect env a visit.answer root (final (acquireOne env a visit.answer) root) :=
    acquireOne_effect fun response hopened => (hserves response hopened).2.1
  cases heffect with
  | unlogged kept =>
      refine ⟨hintact.kept kept.files, recorded, kept.log.trans hlog, fun event hevent => ?_⟩
      obtain ⟨taken, htaken, hfile⟩ := hrecorded event hevent
      exact ⟨taken, List.mem_append_left _ htaken, kept.files _ _ hfile⟩
  | logged response event stored opened whole kept artifacts log holds =>
      have hfiles : ∀ path content, root.artifacts path = some (.file content) →
          (final (acquireOne env a visit.answer) root).artifacts path = some (.file content) :=
        fun path content hfile => artifacts ▸ kept.files path content hfile
      rw [(received_eq_entity_iff hserves opened whole).2 hclear] at holds
      have hlast : (root, visit) ∈ trace ++ [(root, visit)] := by simp
      refine ⟨hintact.kept hfiles, recorded ++ [event], ?_, fun event' hevent' => ?_⟩
      · rw [log, hlog, List.append_assoc]
      rcases List.mem_append.1 hevent' with hold | hnew
      · obtain ⟨taken, htaken, hfile⟩ := hrecorded event' hold
        exact ⟨taken, List.mem_append_left _ htaken, hfiles _ _ hfile⟩
      obtain rfl := List.mem_singleton.1 hnew
      rcases holds with hfile | ⟨prior, hprior, hdigest, hpath⟩
      · exact ⟨_, hlast, artifacts ▸ hfile⟩
      rw [hlog] at hprior
      rw [← hpath]
      rcases List.mem_append.1 hprior with hstart | hrun
      · obtain ⟨content, hfile, hunique⟩ := hintact prior hstart
        obtain rfl := hunique _ hdigest.symm
        exact ⟨_, hlast, hfiles _ _ hfile⟩
      · obtain ⟨taken, htaken, hfile⟩ := hrecorded prior hrun
        exact ⟨taken, List.mem_append_left _ htaken, hfiles _ _ hfile⟩

/-- In a run of calls of which none takes a body that ended early for a whole one, and none adds a
body to anything but a beginning of its entity, whatever is logged is an entity of the server. -/
theorem acquisitions_faithful (hstart : Intact env.sha256 start.acquisitions start)
    (hrun : Run (Step env a) start trace root) (hclear : ∀ taken ∈ trace, Clear a taken) :
    Faithful start trace root := by
  suffices h : Intact env.sha256 start.acquisitions root ∧ Faithful start trace root from h.2
  induction hrun with
  | nil => exact ⟨hstart, [], (List.append_nil _).symm, by simp⟩
  | snoc _ step ih =>
      obtain ⟨hbefore, hlast⟩ := List.forall_mem_append.1 hclear
      obtain ⟨hintact, hfaithful⟩ := ih hbefore
      exact step.faithful (hlast _ (List.mem_singleton_self _)) hintact hfaithful

end Runs

/-! ### A download that is resumed -/

/-- `sha256` is that of `abc` there, and elsewhere that of the empty file. -/
def abcEnvironment : Environment where
  root := PyStr.ofString "/srv/avbox-bootstrap"
  sha256 := fun content =>
    if content = [0x61, 0x62, 0x63] then
      ⟨"ba7816bf8f01cfea414140de5dae2223b00361a396177a9cb410ff61f20015ad", by decide⟩
    else Hashes.empty.sha256
  casefold := id

def abcArtifact : Artifact where
  id := PyStr.ofString "tool-1"
  artifactType := some "removal-tool"
  sourceRisk := some "mutable"
  filename := PyStr.ofString "tool.exe"
  url := PyStr.ofString "http://vendor.example/tool.exe"
  expectedMinBytes := none
  expectedContentTypes := []

/-- The connection times out after `ab`. -/
def brokenVisit (entity : Bytes) : Visit where
  entity := entity
  answer := .opened ⟨200, none, [[0x61, 0x62]], some ⟨"TimeoutError", PyStr.ofString "timed out"⟩⟩

/-- The server sends `c`, the rest of what it has. -/
def resumedVisit (entity : Bytes) : Visit where
  entity := entity
  answer := .opened ⟨206, none, [[0x63]], none⟩

/-- The state after one of the two. -/
def afterVisit (root : Root) (visit : Visit) : Root :=
  final (acquireOne abcEnvironment abcArtifact visit.answer) root

def brokenRoot (entity : Bytes) : Root := afterVisit .empty (brokenVisit entity)

def resumedRun (entity entity' : Bytes) : List (Root × Visit) :=
  [(.empty, brokenVisit entity), (brokenRoot entity, resumedVisit entity')]

/-- Two calls, between which the server may have replaced the entity. -/
lemma run_resumed {entity entity' : Bytes} (hbroken : [0x61, 0x62] <+: entity)
    (hresumed : [0x63] <+: entity'.drop 2) :
    Run (Step abcEnvironment abcArtifact) .empty (resumedRun entity entity')
      (afterVisit (brokenRoot entity) (resumedVisit entity')) := by
  have hfirst : Serves abcArtifact .empty (brokenVisit entity) := by
    intro response hopened
    cases hopened
    exact ⟨.inl rfl, by decide, hbroken⟩
  have hsecond : Serves abcArtifact (brokenRoot entity) (resumedVisit entity') := by
    intro response hopened
    cases hopened
    exact ⟨.inr rfl, by decide, hresumed⟩
  have hrun : Run (Step abcEnvironment abcArtifact) .empty [(.empty, brokenVisit entity)]
      (brokenRoot entity) := Run.nil.snoc ⟨hfirst, rfl⟩
  exact hrun.snoc ⟨hsecond, rfl⟩

theorem acquisitions_faithful_resumed :
    Faithful .empty (resumedRun [0x61, 0x62, 0x63] [0x61, 0x62, 0x63])
      (afterVisit (brokenRoot [0x61, 0x62, 0x63]) (resumedVisit [0x61, 0x62, 0x63])) := by
  refine acquisitions_faithful (fun event hevent => absurd hevent List.not_mem_nil)
    (run_resumed (by decide) (by decide)) fun taken htaken response hopened => ?_
  rcases List.mem_pair.1 htaken with rfl | rfl
  · cases hopened
    exact ⟨nofun, fun h => absurd h (by decide)⟩
  · cases hopened
    exact ⟨fun _ => by decide, fun _ => by decide⟩

/-- The one file of the log is what came of both calls. -/
lemma stored_resumed (entity entity' : Bytes) :
    ∃ event, (afterVisit (brokenRoot entity) (resumedVisit entity')).acquisitions = [event] ∧
      (afterVisit (brokenRoot entity) (resumedVisit entity')).artifacts event.storedPath =
        some (.file [0x61, 0x62, 0x63]) :=
  ⟨_, rfl, rfl⟩

/-- `abd` is replaced by `xyc`, and `abc` is logged. -/
theorem versions_mixed :
    Run (Step abcEnvironment abcArtifact) .empty
        (resumedRun [0x61, 0x62, 0x64] [0x78, 0x79, 0x63])
        (afterVisit (brokenRoot [0x61, 0x62, 0x64]) (resumedVisit [0x78, 0x79, 0x63])) ∧
      ¬Faithful .empty (resumedRun [0x61, 0x62, 0x64] [0x78, 0x79, 0x63])
        (afterVisit (brokenRoot [0x61, 0x62, 0x64]) (resumedVisit [0x78, 0x79, 0x63])) := by
  refine ⟨run_resumed (by decide) (by decide), ?_⟩
  rintro ⟨recorded, hlog, hrecorded⟩
  obtain ⟨event, hevents, hstored⟩ := stored_resumed [0x61, 0x62, 0x64] [0x78, 0x79, 0x63]
  obtain rfl : recorded = [event] := (hlog.symm.trans hevents)
  obtain ⟨taken, htaken, hentity⟩ := hrecorded event (List.mem_singleton_self event)
  have hsame := Entry.file.inj (Option.some.inj (hstored.symm.trans hentity))
  rcases List.mem_pair.1 htaken with rfl | rfl
  · exact absurd hsame (by decide)
  · exact absurd hsame (by decide)

end Bootstrap

end AVBox
