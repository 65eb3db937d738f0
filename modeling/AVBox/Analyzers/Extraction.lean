import AVBox.Analyzers.Partitions
import AVBox.Lib.Program
import AVBox.Models.Jobs
import Mathlib.Algebra.Order.Field.Rat

/-!
# One extraction: what it reads and what it writes

The data of `analyzers/containers.py`.

* `ExtractEnv` is what `ContainerAnalyzer` does not decide itself: the budget, what each decoder
  answers for given bytes, the external tools, the clock.  A decoder is a function of the bytes,
  since a derived file is made read-only before it is looked at.
* `ExtractState` is what one call of `process` shares between its handlers: the job, the
  `ExtractionUsage` record, the files of the derived directory, and the services the children go
  through.
* Every write is a `Write`, so that what an extraction can do to the state is one inductive type,
  and every state in between is one `Point` of the trace.  The trace is never read by the program.
-/

namespace AVBox

open Program

/-! ## The environment -/

/-- A binary stream: the non-empty results of its `read` calls, then an exception or its end. -/
structure ByteStream where
  chunks : List Bytes
  fault : Option Exc
  deriving DecidableEq

/-- `io.BytesIO(data)`, read in pieces of 1 MiB. -/
def ByteStream.ofBytes (data : Bytes) : ByteStream := ⟨Binary.chunks (1024 * 1024) data, none⟩

/-- Where `job.completeness` can be sent by an extraction. -/
inductive Partial
  | error
  | limit
  | unsupported
  deriving DecidableEq, Repr

/-- The value of `job.completeness`. -/
def Partial.text : Partial → String
  | .error => "PARTIAL_ERROR"
  | .limit => "PARTIAL_LIMIT"
  | .unsupported => "PARTIAL_UNSUPPORTED"

structure DocumentChild where
  name : PyStr
  data : Bytes
  deriving DecidableEq

/-- What the extraction uses of a `ParsedDocument`. -/
structure ParsedDocument where
  children : List DocumentChild
  partially : Option Partial
  deriving DecidableEq

structure DiskEntry where
  path : PyStr
  data : Bytes
  index : ℕ
  deriving DecidableEq

inductive FatVariant
  | fat12
  | fat16
  | fat32
  deriving DecidableEq, Repr

inductive AdfVariant
  | ofs
  | ffs
  deriving DecidableEq, Repr

/-- `DiskImage.filesystem`. -/
inductive Filesystem
  | fat (variant : FatVariant)
  | adf (variant : AdfVariant)
  deriving DecidableEq, Repr

def FatVariant.text : FatVariant → String
  | .fat12 => "FAT12"
  | .fat16 => "FAT16"
  | .fat32 => "FAT32"

def AdfVariant.text : AdfVariant → String
  | .ofs => "OFS"
  | .ffs => "FFS"

def Filesystem.text : Filesystem → String
  | .fat variant => variant.text
  | .adf variant => variant.text

/-- A disk image.  Of its metadata only the label is read from the image's content. -/
structure DiskImage where
  format : String
  filesystem : Filesystem
  label : Option PyStr
  entries : List DiskEntry
  deriving DecidableEq

structure ZipInfo where
  filename : PyStr
  flagBits : ℕ
  externalAttr : ℕ
  fileSize : ℕ
  deriving DecidableEq

structure TarInfo where
  name : PyStr
  isLink : Bool
  isFile : Bool
  size : ℕ
  deriving DecidableEq

/-- A row of an external listing.  `declared` is `int(...)` of the size column. -/
structure ExternalMember where
  name : PyStr
  directory : Bool
  declared : Except Exc ℤ

/-- How the listing of an external archive comes out. -/
inductive Listing
  | unavailable
  | notRun
  | refused (encrypted : Bool)
  | members (rows : Except Exc (List ExternalMember))

/-- How a tool that writes a member to its standard output ends. -/
inductive ToolEnd
  | exit (code : ℕ)
  | expired
  | fault (exc : Exc)

structure ToolRun where
  chunks : List Bytes
  ending : ToolEnd

/-- What `_kind` recognises. -/
inductive Kind
  | zip
  | corruptZip
  | partitionedDisk
  | fat
  | amigaAdf
  | lha
  | iso9660
  | sevenZip
  | cab
  | arj
  | tar
  | gzip
  | bzip2
  | xz
  deriving DecidableEq, Repr

structure ExtractionBudget where
  maxRecursionDepth : ℕ
  maxChildrenPerObject : ℕ
  maxTotalChildren : ℕ
  maxSingleChildBytes : ℕ
  maxTotalExtractedBytes : ℕ
  maxExpansionRatio : ℚ
  maxMemberNameBytes : ℕ
  maxPathDepth : ℕ
  maxExtractionTimeSeconds : ℕ
  maxPartitionsPerDisk : ℕ
  maxMaterializedPartitionBytes : ℕ
  maxTotalMaterializedPartitionBytes : ℕ
  deriving DecidableEq

/-- The default settings of `RuntimeSettings`. -/
def ExtractionBudget.default : ExtractionBudget where
  maxRecursionDepth := 3
  maxChildrenPerObject := 100
  maxTotalChildren := 1000
  maxSingleChildBytes := 64 * 1024 * 1024
  maxTotalExtractedBytes := 512 * 1024 * 1024
  maxExpansionRatio := 100
  maxMemberNameBytes := 4096
  maxPathDepth := 32
  maxExtractionTimeSeconds := 300
  maxPartitionsPerDisk := 32
  maxMaterializedPartitionBytes := 256 * 1024 * 1024
  maxTotalMaterializedPartitionBytes := 512 * 1024 * 1024

/-- The decoders and the host of one extraction. -/
structure ExtractEnv where
  budget : ExtractionBudget
  maxDocumentParserBytes : ℕ
  hash : Bytes → Hashes
  parseDocument : Bytes → Except Exc (Option ParsedDocument)
  parseDiskImage : Bytes → Except Exc (Option DiskImage)
  isZipfile : Bytes → Except Exc Bool
  /-- `zipfile.ZipFile(source).infolist()`. -/
  zipInfos : Bytes → Except Exc (List ZipInfo)
  zipOpen : Bytes → ℕ → Except Exc ByteStream
  isTarfile : Bytes → Except Exc Bool
  /-- `tarfile.open(source, mode="r:*").getmembers()`. -/
  tarInfos : Bytes → Except Exc (List TarInfo)
  tarExtract : Bytes → ℕ → Except Exc (Option ByteStream)
  /-- `gzip.open`, `bz2.open` or `lzma.open`. -/
  openCompressed : Kind → Bytes → Except Exc ByteStream
  listArchive : Kind → Bytes → Listing
  /-- `lha xfw`, and the file it leaves behind. -/
  extractLha : Bytes → PyStr → Except Exc (Option ByteStream)
  /-- `7z e -so`. -/
  runTool : Bytes → PyStr → ToolRun
  /-- `time.monotonic() - started` at each reading of the clock. -/
  elapsed : ℕ → ℚ
  /-- What `flush`, `fsync` or `chmod` raises for a child, by its number. -/
  storeFault : ℕ → Option Exc

/-- Decoders that recognise nothing, and a clock that stands still. -/
def ExtractEnv.plain : ExtractEnv where
  budget := .default
  maxDocumentParserBytes := 64 * 1024 * 1024
  hash := fun _ => .empty
  parseDocument := fun _ => .ok none
  parseDiskImage := fun _ => .ok none
  isZipfile := fun _ => .ok false
  zipInfos := fun _ => .error ⟨.badZipFile, "BadZipFile", "File is not a zip file"⟩
  zipOpen := fun _ _ => .error ⟨.badZipFile, "BadZipFile", "File is not a zip file"⟩
  isTarfile := fun _ => .ok false
  tarInfos := fun _ => .error ⟨.tarError, "ReadError", "not a tar file"⟩
  tarExtract := fun _ _ => .error ⟨.tarError, "ReadError", "not a tar file"⟩
  openCompressed := fun _ _ => .error ⟨.osError, "BadGzipFile", "Not a gzipped file"⟩
  listArchive := fun _ _ => .unavailable
  extractLha := fun _ _ => .ok none
  runTool := fun _ _ => ⟨[], .exit 1⟩
  elapsed := fun _ => 0
  storeFault := fun _ => none

/-- The part of `ScanService` that the recursion calls. -/
structure Scans (ω : Type) where
  createQueued : InputArtifact → String → List String → EStateM Exc ω ScanJob
  executeQueued : ScanJob → Bytes → EStateM Exc ω ScanJob

/-- Services that answer each child with an empty job. -/
def Scans.silent : Scans Unit where
  createQueued := fun artifact label requested => pure (.new 0 label artifact requested [])
  executeQueued := fun job _ => pure job

/-- The job that submits a file for recursive extraction. -/
def containerJob (content : Bytes) : ScanJob :=
  .new 0 "submission"
    { hashes := .empty
      byteSize := content.length
      filename := "submission"
      submittedFilename := none
      mediaType := "application/octet-stream"
      source := "upload" }
    ["container"] []

/-! ## Where an exception comes from -/

/-- The calls of an extraction that may raise. -/
inductive DecodeSite
  | document
  | partitionTable
  | diskImage
  | kind
  | zipOpen
  | zipMember
  | tarOpen
  | tarMember
  | compressed
  | listing
  | declaredSize
  | lhaMember
  | toolOutput
  | range
  | target
  | read
  | store
  | artifact
  | scan
  | stack
  deriving DecidableEq, Repr

/-- The classes that the `except` clause around a call names, where it has one of its own. -/
def DecodeSite.guards : DecodeSite → List ExcFamily
  | .document => [.documentError, .osError, .badZipFile]
  | .partitionTable => [.partitionTableError]
  | .diskImage => [.diskImageError]
  | _ => []

/-- An exception that the clause around its own call catches. -/
def Guarded (failure : DecodeSite × Exc) : Prop := failure.2.family ∈ failure.1.guards

instance (failure : DecodeSite × Exc) : Decidable (Guarded failure) :=
  inferInstanceAs (Decidable (_ ∈ _))

/-! ## The state -/

/-- What can be observed between two writes. -/
structure Point where
  usage : ExtractionUsage
  files : List Bytes
  derivedObjects : List DerivedObject

/-- A chunk that `_materialize` has read: the arguments of its checks, and the clock before them. -/
structure ChunkRead where
  chunk : Bytes
  size : ℕ
  parentSize : ℕ
  usage : ExtractionUsage
  ticks : ℕ

/-- The record of an extraction, for statements about it. -/
structure Trace where
  points : List Point
  failures : List (DecodeSite × Exc)
  /-- The objects of the graph, the root included, with their depths. -/
  objects : List (ℕ × Bytes)
  /-- Partitions that are materialised and whose subtree is being processed, innermost first. -/
  pending : List ℕ
  /-- The exceptions that left a call while the subtree of a partition was being processed. -/
  inside : List (DecodeSite × Exc)
  /-- The sizes of the children materialised through a PARTITION_OF edge. -/
  partitionSizes : List ℕ
  /-- The chunks that were read from the streams of children, in order. -/
  reads : List ChunkRead
  /-- The lengths of the writes to the files of children, in order. -/
  chunks : List ℕ
  /-- The bytes of the files that were removed again. -/
  discarded : ℕ
  /-- The bytes in the file of the child that is being materialised. -/
  unfinished : ℕ
  /-- The exceptions that left a call while that file held bytes. -/
  torn : List (DecodeSite × Exc)

structure ExtractState (ω : Type) where
  job : ScanJob
  usage : ExtractionUsage
  /-- The files of the derived directory: number `n` is `child-n`. -/
  files : List Bytes
  derivedRoot : Bool
  scans : ω
  ticks : ℕ
  trace : Trace

variable {ω : Type}

/-- The state a job is in before its extraction begins. -/
def ExtractState.fresh (job : ScanJob) (scans : ω) : ExtractState ω where
  job := job
  usage := .zero
  files := []
  derivedRoot := false
  scans := scans
  ticks := 0
  trace := ⟨[], [], [], [], [], [], [], [], 0, 0, []⟩

/-! ## Writes -/

/-- What an extraction writes. -/
inductive Write
  /-- The clock has been read. -/
  | tick
  /-- `_limit` and `_skip`. -/
  | event (name : String)
  /-- `job.errors.extend`. -/
  | errors (texts : List String)
  | completeness (value : Partial)
  | discovered
  /-- `target.open("xb")`. -/
  | created
  /-- Not a write of the program: a chunk has been read. -/
  | read (chunk : ChunkRead)
  /-- `output.write(chunk)`. -/
  | wrote (length : ℕ)
  /-- `target.unlink(missing_ok=True)`. -/
  | unlinked
  /-- The file of a child is complete. -/
  | stored (content : Bytes)
  /-- `usage.children_materialized += 1`. -/
  | begun (relation : Relation) (content : Bytes)
  | derived (object : DerivedObject) (content : Bytes)
  | related (relationship : ObjectRelationship)
  | deeper (depth : ℕ)
  /-- `usage.materialized_partition_bytes += length`. -/
  | charged (length : ℕ)
  /-- Not a write of the program: an exception leaves a call. -/
  | failed (site : DecodeSite) (exc : Exc)

/-- `_limit` and `_skip` record an event once. -/
def ExtractionUsage.addEvent (usage : ExtractionUsage) (event : String) : ExtractionUsage :=
  if event ∈ usage.limitEvents then usage
  else { usage with limitEvents := usage.limitEvents ++ [event] }

/-- The program's part of a write. -/
def Write.change (s : ExtractState ω) : Write → ExtractState ω
  | .tick => { s with ticks := s.ticks + 1 }
  | .event name => { s with usage := s.usage.addEvent name }
  | .errors texts => { s with job.errors := s.job.errors ++ texts }
  | .completeness value => { s with job.completeness := value.text }
  | .discovered => { s with usage.childrenDiscovered := s.usage.childrenDiscovered + 1 }
  | .created | .read _ | .wrote _ | .unlinked => s
  | .stored content =>
      { s with
        files := s.files ++ [content]
        usage.totalExtractedBytes := s.usage.totalExtractedBytes + content.length }
  | .begun _ _ => { s with usage.childrenMaterialized := s.usage.childrenMaterialized + 1 }
  | .derived object _ => { s with job.derivedObjects := s.job.derivedObjects ++ [object] }
  | .related relationship => { s with job.relationships := s.job.relationships ++ [relationship] }
  | .deeper depth => { s with usage.maxDepthReached := max s.usage.maxDepthReached depth }
  | .charged length =>
      { s with usage.materializedPartitionBytes := s.usage.materializedPartitionBytes + length }
  | .failed _ _ => s

/-- What the trace notes of a write, beside the point it reaches. -/
def Write.note (trace : Trace) : Write → Trace
  | .created | .unlinked =>
      { trace with discarded := trace.discarded + trace.unfinished, unfinished := 0 }
  | .read chunk => { trace with reads := trace.reads ++ [chunk] }
  | .wrote length =>
      { trace with
        chunks := trace.chunks ++ [length]
        unfinished := trace.unfinished + length }
  | .stored _ => { trace with unfinished := 0 }
  | .begun relation content =>
      if relation = .partitionOf then
        { trace with
          pending := content.length :: trace.pending
          partitionSizes := trace.partitionSizes ++ [content.length] }
      else trace
  | .derived object content =>
      { trace with objects := trace.objects ++ [(object.depth, content)] }
  | .charged _ => { trace with pending := trace.pending.tail }
  | .failed site exc =>
      { trace with
        failures := trace.failures ++ [(site, exc)]
        inside := if trace.pending = [] then trace.inside else trace.inside ++ [(site, exc)]
        torn := if trace.unfinished = 0 then trace.torn else trace.torn ++ [(site, exc)] }
  | _ => trace

/-- What can be observed of a state. -/
def ExtractState.point (s : ExtractState ω) : Point := ⟨s.usage, s.files, s.job.derivedObjects⟩

/-- A write, with its point in the trace. -/
def Write.apply (s : ExtractState ω) (write : Write) : ExtractState ω :=
  let changed := write.change s
  let noted := write.note s.trace
  { changed with trace := { noted with points := noted.points ++ [changed.point] } }

/-! ## Programs -/

/-- A part of an extraction. -/
abbrev Extract (ω α : Type) := EStateM Exc (ExtractState ω) α

def perform (write : Write) : Extract ω Unit := modify write.apply

/-- `_limit(job, usage, event)`. -/
def limit (event : String) : Extract ω Unit := perform (.event event)

/-- `_skip(job, usage, event)`. -/
def skip (event : String) : Extract ω Unit := perform (.event event)

/-- A call whose answer is `r`. -/
def decode {α : Type} (site : DecodeSite) (r : Except Exc α) : Extract ω α :=
  match r with
  | .ok a => pure a
  | .error exc => do
      perform (.failed site exc)
      throw exc

/-- A call inside its own `try` statement. -/
def guarded {α : Type} (site : DecodeSite) (r : Except Exc α) (recover : Exc → Extract ω α) :
    Extract ω α :=
  tryCatch (decode site r) fun exc =>
    if exc.family ∈ site.guards then recover exc else throw exc

/-- A program of the services the children go through. -/
def onScans {α : Type} (x : EStateM Exc ω α) : Extract ω α := do
  let s ← get
  match x s.scans with
  | .ok a scans => do
      set { s with scans := scans }
      return a
  | .error exc scans => do
      set { s with scans := scans }
      perform (.failed .scan exc)
      throw exc

end AVBox
