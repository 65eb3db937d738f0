import AVBox.Analyzers.Extraction

/-!
# Recursive extraction

`ContainerAnalyzer` of `analyzers/containers.py`.  The handlers take the recursive call as an
argument, and `processObject` ties the knot with a fuel that bounds the depth of the recursion.
The metadata of derived objects is left out, nothing of the service reads it.
-/

namespace AVBox

open Program Binary

namespace ContainerAnalyzer

variable {ω : Type} (env : ExtractEnv) (scans : Scans ω)

/-! ## Names -/

/-- The length of a code point in `name.encode("utf-8", errors="replace")`. -/
def encodedLength (c : Fin 0x110000) : ℕ :=
  if PyStr.isSurrogate c ∨ c.val < 0x80 then 1
  else if c.val < 0x800 then 2
  else if c.val < 0x10000 then 3
  else 4

/-- `name.replace("\\", "/")`. -/
def slashes (name : PyStr) : PyStr := name.map fun c => if c.val = 0x5C then 0x2F else c

/-- `_safe_name`. -/
def safeName (name : PyStr) : Bool :=
  if (name.map encodedLength).sum > env.budget.maxMemberNameBytes then false
  else if (0 : Fin 0x110000) ∈ name then false
  else if name.head? = some 0x2F ∨ name.head? = some 0x5C then false
  else if name[1]? = some 0x3A then false
  else
    let parts := ((slashes name).splitOn 0x2F).filter fun part => !part.isEmpty
    decide (parts.length ≤ env.budget.maxPathDepth ∧ PyStr.ofString ".." ∉ parts)

/-- The root that `PurePosixPath` keeps: two leading slashes are special, three are not. -/
def posixRoot (name : PyStr) : PyStr :=
  let leading := (name.takeWhile (· = 0x2F)).length
  if leading = 0 then [] else if leading = 2 then [0x2F, 0x2F] else [0x2F]

/-- `PurePosixPath(name).as_posix()`. -/
def posixPath (name : PyStr) : PyStr :=
  let parts := (name.splitOn 0x2F).filter fun part => !part.isEmpty && part ≠ [0x2E]
  let path := posixRoot name ++ (parts.intersperse [0x2F]).flatten
  if path = [] then [0x2E] else path

/-- `_safe_display`. -/
def safeDisplay (name : PyStr) : PyStr := (posixPath (slashes name)).take 4096

/-- `path.name` of a child. -/
def childName (number : ℕ) : String :=
  "child-" ++ String.ofList (List.leftpad 8 '0' (toString number).toList)

/-! ## Recognition -/

/-- The magic numbers at the end of `_kind`. -/
def magicKind (header : Bytes) : Option Kind :=
  if [0x1F, 0x8B].isPrefixOf header then some .gzip
  else if [0x42, 0x5A, 0x68].isPrefixOf header then some .bzip2
  else if [0xFD, 0x37, 0x7A, 0x58, 0x5A, 0x00].isPrefixOf header then some .xz
  else if [0x37, 0x7A, 0xBC, 0xAF, 0x27, 0x1C].isPrefixOf header then some .sevenZip
  else if [0x4D, 0x53, 0x43, 0x46].isPrefixOf header then some .cab
  else if [0x60, 0xEA].isPrefixOf header then some .arj
  else none

/-- `CD001` at one of the two places an ISO 9660 descriptor can have. -/
def isIso (content : Bytes) : Bool :=
  let magic := [0x43, 0x44, 0x30, 0x30, 0x31]
  slice content 0x8001 0x8006 = magic || slice content 0x8801 0x8806 = magic

/-- The end of `_kind`, for content in which no filesystem was recognised. -/
def archiveKind (content : Bytes) : Except Exc (Option Kind) := do
  let header := content.take 8
  if ← env.isZipfile content then return some .zip
  else if [0x50, 0x4B].isPrefixOf header then return some .corruptZip
  else if isIso content then return some .iso9660
  else match env.isTarfile content with
    | .ok true => return some .tar
    | .ok false => return magicKind header
    | .error exc =>
        if exc.family ∈ [.osError, .tarError] then return magicKind header else .error exc

/-- `_kind`. -/
def kindOf (content : Bytes) : Except Exc (Option Kind) :=
  let header := content.take 8
  let amigaOrFat (amiga : Bool) := if amiga then Kind.amigaAdf else .fat
  if Partitions.parse content 32 ≠ .ok none then .ok (some .partitionedDisk)
  else if [0x2D, 0x6C, 0x68].isPrefixOf (slice header 2 7) ∧ 7 ≤ header.length then
    .ok (some .lha)
  else match env.parseDiskImage content with
    | .ok (some image) => .ok (some (amigaOrFat (decide (image.format = "amiga-adf"))))
    | .ok none => archiveKind env content
    | .error exc =>
        if exc.family = .diskImageError then
          .ok (some (amigaOrFat ([0x44, 0x4F, 0x53].isPrefixOf header)))
        else .error exc

/-! ## Limits -/

/-- `time.monotonic() - started > self.budget.max_extraction_time_seconds`. -/
def expired : Extract ω Bool := do
  let s ← get
  perform .tick
  return decide (env.elapsed s.ticks > env.budget.maxExtractionTimeSeconds)

/-- `_can_start_child`. -/
def canStartChild : Extract ω Bool := do
  let s ← get
  if s.usage.childrenMaterialized ≥ env.budget.maxTotalChildren then
    limit "TOTAL_CHILD_COUNT_LIMIT"
    return false
  else return true

/-! ## Materialising a child -/

/-- The checks on one chunk: the limit it runs into, if any. -/
def chunkLimit (usage : ExtractionUsage) (parentSize size : ℕ) (chunk : Bytes) : Option String :=
  let size := size + chunk.length
  if size > env.budget.maxSingleChildBytes then some "CHILD_SIZE_LIMIT"
  else if usage.totalExtractedBytes + size > env.budget.maxTotalExtractedBytes then
    some "EXTRACTION_BYTE_BUDGET_EXHAUSTED"
  else if parentSize ≠ 0 ∧ (size : ℚ) / parentSize > env.budget.maxExpansionRatio then
    some "EXPANSION_RATIO_LIMIT"
  else none

/-- The loop over the chunks: `none` when a limit ends it. -/
def readChunks (parentSize : ℕ) (fault : Option Exc) :
    List Bytes → Bytes → Extract ω (Option Bytes)
  | [], content => do
      decode .read (fault.elim (.ok ()) .error)
      return some content
  | chunk :: chunks, content => do
      let s ← get
      perform (.read ⟨chunk, content.length, parentSize, s.usage, s.ticks⟩)
      if ← expired env then
        limit "EXTRACTION_TIME_LIMIT"
        return none
      else
        match chunkLimit env (← get).usage parentSize content.length chunk with
        | some event =>
            limit event
            return none
        | none => do
            perform (.wrote chunk.length)
            readChunks parentSize fault chunks (content ++ chunk)

/-- What `target.open("xb")` raises when the file is there. -/
def fileExists (number : ℕ) : Exc :=
  ⟨.osError, "FileExistsError", s!"[Errno 17] File exists: '{childName number}'"⟩

/-- The `try` block of `_materialize` once the file is open, and what the `finally` clause does when
a limit ends it. -/
def writeChild (stream : ByteStream) (parentSize number : ℕ) : Extract ω (Option Bytes) := do
  match ← readChunks env parentSize stream.fault stream.chunks [] with
  | none =>
      perform .unlinked
      return none
  | some content =>
      decode .store ((env.storeFault number).elim (.ok ()) .error)
      perform (.stored content)
      return some content

/-- `_materialize`: the file of an abandoned child is removed again. -/
def materialize (stream : ByteStream) (parentSize : ℕ) : Extract ω (Option Bytes) := do
  let s ← get
  let number := s.usage.childrenMaterialized
  decode .target (if number < s.files.length then .error (fileExists number) else .ok ())
  perform .created
  tryCatch (writeChild env stream parentSize number) fun exc => do
    perform .unlinked
    throw exc

/-- `_artifact`: the model refuses a name that has no UTF-8 encoding. -/
def artifactOf (number : ℕ) (content : Bytes) (name : PyStr) : Except Exc InputArtifact :=
  if name.wellFormed then
    .ok
      { hashes := env.hash content
        byteSize := content.length
        filename := childName number
        submittedFilename := some name
        mediaType := "application/octet-stream"
        source := "derived-container" }
  else .error ⟨.valueError, "ValidationError", "submitted_filename: invalid unicode string"⟩

/-! ## A child -/

/-- The identity of a child. -/
def identityOf (artifact : InputArtifact) : ObjectIdentity where
  sha256 := artifact.hashes.sha256
  blake3 := some artifact.hashes.blake3
  sha1 := some artifact.hashes.sha1
  md5 := some artifact.hashes.md5
  size := artifact.byteSize
  filename := some artifact.filename
  mediaType := some artifact.mediaType

/-- What a handler hands to `_child`. -/
structure Member where
  stream : ByteStream
  name : PyStr
  index : ℕ
  relation : Relation

/-- The `DerivedObject` of a child that has been scanned. -/
def derivedObject (parent artifact : InputArtifact) (member : Member) (depth : ℕ)
    (result : ScanJob) : DerivedObject where
  object := .identity (identityOf artifact)
  parentSha256 := parent.hashes.sha256
  depth := depth
  memberName := member.name
  normalizedMemberName := safeDisplay member.name
  memberIndex := member.index
  analyzerResults := result.analyzerResults
  scannerResults := result.scannerResults
  normalizedVerdict := result.normalizedVerdict
  errors := result.errors
  preservationContext := .empty

/-- The edge from the parent of a child. -/
def relationshipOf (parent artifact : InputArtifact) (member : Member) (depth : ℕ) :
    ObjectRelationship where
  relationship := member.relation
  sourceSha256 := parent.hashes.sha256
  targetSha256 := artifact.hashes.sha256
  memberName := member.name
  normalizedMemberName := safeDisplay member.name
  depth := depth
  memberIndex := member.index

/-- The scan of a child: `create_queued`, then `execute_queued`. -/
def scanChild (artifact : InputArtifact) (label : String) (requested : List String)
    (content : Bytes) : EStateM Exc ω ScanJob := do
  let job ← scans.createQueued artifact label requested
  scans.executeQueued job content

/-- What the scan of a child is asked for: everything but the container analyzer. -/
def childScanners (job : ScanJob) : List String := job.requestedScanners.filter (· ≠ "container")

/-- A recursive call: the depth, the artifact and the content of the object to process. -/
abbrev Recurse (ω : Type) := ℕ → InputArtifact → Bytes → Extract ω Unit

/-- The end of `_child`: the child joins the graph, and its own members follow. -/
def recordChild (recurse : Recurse ω) (parent : InputArtifact) (member : Member) (depth : ℕ)
    (artifact : InputArtifact) (content : Bytes) (result : ScanJob) : Extract ω Unit := do
  perform (.derived (derivedObject parent artifact member depth result) content)
  perform (.related (relationshipOf parent artifact member depth))
  perform (.deeper depth)
  if depth ≥ env.budget.maxRecursionDepth then
    let kind ← decode .kind (kindOf env content)
    if kind.isSome then limit "RECURSION_LIMIT_REACHED"
  else recurse depth artifact content

/-- `_child` once the file of the child is there. -/
def enterChild (recurse : Recurse ω) (parent : InputArtifact) (member : Member) (depth number : ℕ)
    (content : Bytes) : Extract ω Unit := do
  let job := (← get).job
  perform (.begun member.relation content)
  let artifact ← decode .artifact (artifactOf env number content member.name)
  let result ← onScans <|
    scanChild scans artifact s!"derived:{job.jobId}" (childScanners job) content
  recordChild env recurse parent member depth artifact content result

/-- `_child`. -/
def child (recurse : Recurse ω) (parent : InputArtifact) (member : Member)
    (parentDepth parentSize : ℕ) : Extract ω Unit := do
  if ← canStartChild env then
    let number := (← get).usage.childrenMaterialized
    match ← materialize env member.stream parentSize with
    | none => pure ()
    | some content => enterChild env scans recurse parent member (parentDepth + 1) number content

/-! ## The handlers -/

/-- The object a handler works on. -/
structure Source where
  parent : InputArtifact
  depth : ℕ
  content : Bytes

/-- `_child` for a member of an object. -/
def childOf (recurse : Recurse ω) (source : Source) (member : Member) : Extract ω Unit :=
  child env scans recurse source.parent member source.depth source.content.length

/-- `_child`, with the arguments that are the same for all members of an object filled in. -/
abbrev Visit (ω : Type) := Member → Extract ω Unit

/-- The check on the number of members of one object. -/
def limitChildren (count : ℕ) : Extract ω Unit :=
  if count > env.budget.maxChildrenPerObject then limit "CHILD_COUNT_LIMIT" else pure ()

/-- The loop over the members of an object, which all handlers but the one for partitions share. -/
def eachMember {α : Type} (items : List α) (body : α → ℕ → Extract ω Unit) : Extract ω Unit := do
  limitChildren env items.length
  forEach (fun (item, index) => do
    perform .discovered
    if ← canStartChild env then
      body item index
      return Flow.next
    else return Flow.stop) (items.take env.budget.maxChildrenPerObject).zipIdx

/-- A document that could be parsed in part makes the job partial. -/
def takePartial (partially : Option Partial) : Extract ω Unit := do
  let s ← get
  match partially with
  | some state =>
      if s.job.completeness = "COMPLETE" then perform (.completeness state) else pure ()
  | none => pure ()

/-- The children of a document. -/
def processDocument (visit : Visit ω) (document : ParsedDocument) : Extract ω Unit := do
  takePartial document.partially
  eachMember env document.children fun item index =>
    visit ⟨.ofBytes item.data, item.name, index, .embeddedFileOf⟩

/-- `_is_zip_link`. -/
def isZipLink (info : ZipInfo) : Bool :=
  let mode := (info.externalAttr >>> 16) &&& 0xFFFF
  mode &&& 0o170000 = 0o120000

/-- A member of a ZIP archive. -/
def zipMember (visit : Visit ω) (content : Bytes) (info : ZipInfo) (index : ℕ) :
    Extract ω Unit := do
  if info.flagBits &&& 1 ≠ 0 then skip "ENCRYPTED_CONTAINER"
  else if !safeName env info.filename then skip "UNSAFE_MEMBER_PATH"
  else if isZipLink info then skip "SYMLINK_ENTRY"
  else if info.fileSize > env.budget.maxSingleChildBytes then skip "CHILD_SIZE_LIMIT"
  else
    let stream ← decode .zipMember (env.zipOpen content index)
    visit ⟨stream, info.filename, index, .contains⟩

def processZip (visit : Visit ω) (content : Bytes) : Extract ω Unit := do
  let infos ← decode .zipOpen (env.zipInfos content)
  eachMember env infos (zipMember env visit content)

/-- A member of a tar archive. -/
def tarMember (visit : Visit ω) (content : Bytes) (info : TarInfo) (index : ℕ) :
    Extract ω Unit := do
  if !safeName env info.name then skip "UNSAFE_MEMBER_PATH"
  else if info.isLink then skip "SYMLINK_OR_HARDLINK_ENTRY"
  else if !info.isFile then skip "SPECIAL_FILE_ENTRY"
  else if info.size > env.budget.maxSingleChildBytes then skip "CHILD_SIZE_LIMIT"
  else
    match ← decode .tarMember (env.tarExtract content index) with
    | some stream => visit ⟨stream, info.name, index, .contains⟩
    | none => pure ()

def processTar (visit : Visit ω) (content : Bytes) : Extract ω Unit := do
  let infos ← decode .tarOpen (env.tarInfos content)
  eachMember env infos (tarMember env visit content)

/-- The name of the only member of a compressed stream. -/
def decompressedName : Kind → PyStr
  | .gzip => PyStr.ofString "decompressed.gzip"
  | .bzip2 => PyStr.ofString "decompressed.bzip2"
  | _ => PyStr.ofString "decompressed.xz"

def processCompressed (visit : Visit ω) (kind : Kind) (content : Bytes) : Extract ω Unit := do
  let stream ← decode .compressed (env.openCompressed kind content)
  perform .discovered
  visit ⟨stream, decompressedName kind, 0, .decompressedFrom⟩

/-- The name of a partition. -/
def partitionName (partition : Partition) : PyStr :=
  partition.name.getD (PyStr.ofString s!"partition-{partition.index}")

/-- The charge of a partition that was materialised, which is made after `_child` has returned. -/
def chargePartition (partition : Partition) (before : ℕ) : Extract ω Unit := do
  let s ← get
  if s.usage.childrenMaterialized > before then perform (.charged partition.length) else pure ()

/-- One pass of the loop over the partitions.  The check against the total budget sees neither the
partitions around this one nor those inside it. -/
def partitionMember (visit : Visit ω) (content : Bytes) (partition : Partition) :
    Extract ω Flow := do
  perform .discovered
  if ← canStartChild env then
    if partition.length > env.budget.maxMaterializedPartitionBytes then
      limit "PARTITION_MATERIALIZATION_LIMIT"
      return .next
    else if (← get).usage.materializedPartitionBytes + partition.length >
        env.budget.maxTotalMaterializedPartitionBytes then
      limit "TOTAL_PARTITION_MATERIALIZATION_LIMIT"
      return .stop
    else
      let view ← decode .range
        (Partitions.rangeReader content partition.start partition.length)
      let before := (← get).usage.childrenMaterialized
      visit ⟨.ofBytes view, partitionName partition, partition.index, .partitionOf⟩
      chargePartition partition before
      return .next
  else return .stop

/-- The errors of a table that could be read in part. -/
def reportTable (errors : List String) : Extract ω Unit :=
  if errors = [] then pure ()
  else do
    perform (.errors (errors.map fun error => s!"partition-table: {error}"))
    perform (.completeness .error)

/-- What is left of a partition table that cannot be read. -/
def refuseTable (exc : Exc) : Extract ω (Option PartitionTable) := do
  skip "CORRUPT_PARTITION_TABLE"
  perform (.errors [s!"partition-table: {exc.text}"])
  perform (.completeness .error)
  return none

/-- `_process_partitioned_disk`. -/
def processPartitionedDisk (visit : Visit ω) (content : Bytes) : Extract ω Unit := do
  match ← guarded .partitionTable
    (Partitions.parse content env.budget.maxPartitionsPerDisk) refuseTable with
  | none => pure ()
  | some table => do
      reportTable table.errors
      forEach (partitionMember env visit content) table.partitions

/-- A file of a filesystem image. -/
def diskEntry (visit : Visit ω) (entry : DiskEntry) : Extract ω Unit := do
  if !safeName env entry.path then skip "UNSAFE_MEMBER_PATH"
  else
    visit ⟨.ofBytes entry.data, entry.path, entry.index, .filesystemEntryOf⟩

/-- What is left of a filesystem image that cannot be read. -/
def refuseImage (exc : Exc) : Extract ω (Option DiskImage) := do
  skip "CORRUPT_FILESYSTEM"
  perform (.errors [s!"disk-image: {exc.name}: {exc.text}"])
  perform (.completeness .error)
  return none

/-- `_process_disk_image`. -/
def processDiskImage (visit : Visit ω) (content : Bytes) : Extract ω Unit := do
  match ← guarded .diskImage (env.parseDiskImage content) refuseImage with
  | none => pure ()
  | some image => eachMember env image.entries fun entry _ => diskEntry env visit entry

/-- `_extract_stdout`: the output of the tool, unless it failed or grew too large. -/
def toolOutput (run : ToolRun) : Except Exc (Option Bytes) :=
  if run.chunks.flatten.length > env.budget.maxSingleChildBytes then .ok none
  else match run.ending with
    | .exit code => .ok (if code = 0 then some run.chunks.flatten else none)
    | .expired => .ok none
    | .fault exc => if exc.family ∈ [.osError, .timeoutExpired] then .ok none else .error exc

/-- A member that the tool for its kind extracts. -/
def extractExternal (kind : Kind) (content : Bytes) (name : PyStr) :
    Extract ω (Option ByteStream) :=
  if kind = .lha then decode .lhaMember (env.extractLha content name)
  else do
    let output ← decode .toolOutput (toolOutput env (env.runTool content name))
    return output.map ByteStream.ofBytes

/-- The edge of a member of an external archive. -/
def externalRelation (kind : Kind) : Relation :=
  if kind = .iso9660 then .filesystemEntryOf else .contains

/-- A member of an external archive. -/
def externalMember (visit : Visit ω) (kind : Kind) (content : Bytes) (row : ExternalMember)
    (index : ℕ) : Extract ω Unit := do
  if !safeName env row.name then skip "UNSAFE_MEMBER_PATH"
  else if row.directory then pure ()
  else
    let declared ← decode .declaredSize row.declared
    if declared > env.budget.maxSingleChildBytes then skip "CHILD_SIZE_LIMIT"
    else
      match ← extractExternal env kind content row.name with
      | none => skip "MEMBER_EXTRACTION_FAILURE"
      | some stream => visit ⟨stream, row.name, index, externalRelation kind⟩

/-- An event together with what it makes of the completeness. -/
def skipAs (event : String) (value : Partial) : Extract ω Unit := do
  skip event
  perform (.completeness value)

/-- `_process_external_archive`. -/
def processExternalArchive (visit : Visit ω) (kind : Kind) (content : Bytes) :
    Extract ω Unit :=
  match env.listArchive kind content with
  | .unavailable => skipAs "EXTRACTION_UNAVAILABLE" .unsupported
  | .notRun => skipAs "ENUMERATION_FAILURE" .error
  | .refused true => skipAs "ENCRYPTED_CONTAINER" .unsupported
  | .refused false => skipAs "CORRUPT_CONTAINER" .error
  | .members rows => do
      let rows ← decode .listing rows
      eachMember env rows (externalMember env visit kind content)

/-- The handler of each kind. -/
def processContainer (visit : Visit ω) (content : Bytes) : Kind → Extract ω Unit
  | .corruptZip => skipAs "CORRUPT_CONTAINER" .error
  | .zip => processZip env visit content
  | .partitionedDisk => processPartitionedDisk env visit content
  | .fat | .amigaAdf => processDiskImage env visit content
  | .lha => processExternalArchive env visit .lha content
  | .iso9660 => processExternalArchive env visit .iso9660 content
  | .sevenZip => processExternalArchive env visit .sevenZip content
  | .cab => processExternalArchive env visit .cab content
  | .arj => processExternalArchive env visit .arj content
  | .tar => processTar env visit content
  | .gzip => processCompressed env visit .gzip content
  | .bzip2 => processCompressed env visit .bzip2 content
  | .xz => processCompressed env visit .xz content

/-- What is left of a document that cannot be parsed. -/
def refuseDocument (exc : Exc) : Extract ω (Option ParsedDocument) := do
  perform (.errors [s!"document: {exc.name}: {exc.text}"])
  perform (.completeness .error)
  return none

/-- The document an object is, when it is small enough to be parsed as one. -/
def readDocument (content : Bytes) : Extract ω (Option ParsedDocument) :=
  guarded .document
    (if content.length ≤ env.maxDocumentParserBytes then env.parseDocument content else .ok none)
    refuseDocument

/-- `_process_object`, with the recursive call as an argument. -/
def objectBody (recurse : Recurse ω) (source : Source) : Extract ω Unit := do
  if ← expired env then limit "EXTRACTION_TIME_LIMIT"
  else if source.depth ≥ env.budget.maxRecursionDepth then pure ()
  else
    match ← readDocument env source.content with
    | some document => processDocument env (childOf env scans recurse source) document
    | none =>
        match ← decode .kind (kindOf env source.content) with
        | none => pure ()
        | some kind => processContainer env (childOf env scans recurse source) source.content kind

/-- What a recursion that is too deep raises. -/
def recursionError : Exc :=
  ⟨.recursionError, "RecursionError", "maximum recursion depth exceeded"⟩

/-- `_process_object`.  `fuel` bounds the number of nested calls. -/
def processObject : ℕ → Recurse ω
  | 0 => fun _ _ _ => decode .stack (.error recursionError)
  | fuel + 1 => fun depth parent content =>
      objectBody env scans (processObject fuel) ⟨parent, depth, content⟩

/-! ## The entry point -/

/-- The fuel of a run: one call for each depth. -/
def recursionFuel : ℕ := env.budget.maxRecursionDepth + 1

/-- The state at the beginning of the `try` statement. -/
def begin (source : Bytes) (s : ExtractState ω) : ExtractState ω where
  job := s.job
  usage := .zero
  files := []
  derivedRoot := true
  scans := s.scans
  ticks := 0
  trace :=
    { points := [⟨.zero, [], s.job.derivedObjects⟩]
      failures := []
      objects := [(0, source)]
      pending := []
      inside := []
      partitionSizes := []
      reads := []
      chunks := []
      discarded := 0
      unfinished := 0
      torn := [] }

/-- The end of the `try` statement: a limit that left no other mark makes the job partial. -/
def conclude : Extract ω Unit := do
  let s ← get
  if s.usage.limitEvents ≠ [] ∧ s.job.completeness = "COMPLETE" then
    perform (.completeness .limit)
  else pure ()

/-- The classes that the `except` clause of `process` names. -/
def processGuards : List ExcFamily := [.osError, .tarError, .badZipFile, .eofError]

/-- The `except` clause of `process`. -/
def recoverProcess (exc : Exc) : Extract ω Unit :=
  if exc.family ∈ processGuards then do
    perform (.errors [s!"container: {exc.name}: {exc.text}"])
    perform (.completeness .error)
  else throw exc

/-- The body of the `try` statement. -/
def processBody (source : Bytes) : Extract ω Unit := do
  processObject env scans (recursionFuel env) 0 (← get).job.inputArtifact source
  conclude

/-- `shutil.rmtree(derived_root, ignore_errors=True)`. -/
def removeDerived : Extract ω Unit := modify fun s => { s with files := [], derivedRoot := false }

/-- `process`. -/
def process (source : Bytes) : Extract ω Unit := do
  modify (begin source)
  tryFinally (tryCatch (processBody env scans source) recoverProcess) removeDerived

end ContainerAnalyzer

end AVBox
