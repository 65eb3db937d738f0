import AVBox.Analyzers.DiskImages
import AVBox.Lib.Loop
import Mathlib.Data.List.Infix

/-!
# The structural validator

`analyzers/structural.py`: the ADF, FAT, RDB, ISO9660 and LHA validators.  Each goes on after most
of what it finds wrong, so what a run has found is part of the state it works on.

The times in a `StructuralValidation` and the fields that are the same in every one are left out.
The loops over media content have as much fuel as they need, and raise `Exc.unending` without it.
-/

namespace AVBox

/-- `ZeroDivisionError`. -/
def Exc.zeroDivision : Exc := ⟨.other, "ZeroDivisionError", "integer division or modulo by zero"⟩

inductive StructuralState
  | valid
  | damaged
  | corrupt
  | truncated
  | nonStandard
  | partially
  deriving DecidableEq, Repr

/-- `state.value`. -/
def StructuralState.text : StructuralState → String
  | .valid => "VALID"
  | .damaged => "DAMAGED"
  | .corrupt => "CORRUPT"
  | .truncated => "TRUNCATED"
  | .nonStandard => "NON_STANDARD"
  | .partially => "PARTIAL"

inductive MediaFormat
  | adf
  | fat
  | rdb
  | iso9660
  | lha
  deriving DecidableEq, Repr

def MediaFormat.text : MediaFormat → String
  | .adf => "ADF"
  | .fat => "FAT"
  | .rdb => "RDB/HDF"
  | .iso9660 => "ISO9660"
  | .lha => "LHA"

/-- The value of an observation. -/
inductive Observed
  | bool (value : Bool)
  | int (value : ℕ)
  | text (value : PyStr)
  | none
  deriving DecidableEq

structure StructuralFinding where
  findingType : String
  evidenceRefs : List String
  deriving DecidableEq

/-- The assessment of a medium that is not valid. -/
structure DamageAssessment where
  statement : String
  evidenceRefs : List String
  deriving DecidableEq

structure StructuralValidation where
  format : MediaFormat
  variant : Option String
  state : StructuralState
  observations : List (String × Observed)
  findings : List StructuralFinding
  assessments : List DamageAssessment
  completeness : String
  limitState : Option String
  deriving DecidableEq

/-- The limits of the validator. -/
structure StructuralLimits where
  maxBytes : ℕ
  maxNodes : ℕ
  deriving DecidableEq

def StructuralLimits.default : StructuralLimits where
  maxBytes := 256 * 1024 * 1024
  maxNodes := 100000

namespace StructuralValidator

open Binary Walk

/-- `_result`. -/
def result (format : MediaFormat) (variant : Option String) (state : StructuralState)
    (observations : List (String × Observed)) (findings : List String) (completeness : String) :
    StructuralValidation :=
  let unique := findings.foldl (fun kept f => if f ∈ kept then kept else kept ++ [f]) []
  { format := format
    variant := variant
    state := state
    observations := observations
    findings := unique.map fun f => ⟨f, observations.map Prod.fst⟩
    assessments :=
      if state = .valid then []
      else [⟨s!"{format.text} structural validation state is {state.text}", unique⟩]
    completeness := completeness
    limitState := if completeness = "PARTIAL_LIMIT" then some "VALIDATION_BYTE_LIMIT" else none }

/-- `needle in text`. -/
def mentions (needle text : String) : Bool := decide (needle.toList <:+: text.toList)

/-- `text.lower()` for the texts of AVBox's own exceptions. -/
def lower (text : String) : String := String.ofList (text.toList.map Char.toLower)

/-! ## ADF -/

/-- `_amiga_boot_checksum`. -/
def amigaBootChecksum (block : Bytes) : Bool :=
  if block.length ≠ 1024 then false
  else
    let total := (List.range 256).foldl (fun total i =>
      let sum := (total + be32 block (4 * i)) % 2 ^ 32
      if sum < total then (sum + 1) % 2 ^ 32 else sum) 0
    decide (total = 0xFFFFFFFF)

/-- What `_walk_adf` counts and remembers. -/
structure AdfState where
  nodes : ℕ
  seen : List ℕ
  deriving DecidableEq

section AdfWalk

variable (maxNodes : ℕ) (data : Bytes) (variant : AdfVariant)

/-- The data blocks of a file, `total` bytes of which are accounted for. -/
def adfFileBlocks (key wanted : ℕ) : List ℕ → ℕ → AdfState → Except Exc AdfState
  | [], total, state =>
      if total < wanted then .error (.diskImage "truncated ADF file") else .ok state
  | pointer :: rest, total, state =>
      if pointer ∈ state.seen then .error (.diskImage "cyclic ADF file block list")
      else do
        let state := { state with seen := pointer :: state.seen }
        let payload ← Adf.block data pointer
        let count := be32 payload 12
        if variant = .ofs ∧ (be32 payload 0 ≠ 8 ∨ be32 payload 4 ≠ key ∨ count > 488 ∨
            Adf.blockChecksum payload = false) then
          .error (.diskImage "invalid OFS data block")
        else
          let total := total + if variant = .ofs then count else 512
          if total ≥ wanted then return state else adfFileBlocks key wanted rest total state

/-- What `walk` does with an entry. -/
def adfLook (state : AdfState) (key : ℕ) : Except Exc (Turn AdfState ℕ) :=
  if state.nodes + 1 > maxNodes then .error (.diskImage "ADF validation node limit")
  else if key ∈ state.seen then .error (.diskImage "cyclic ADF directory hash chain")
  else do
    let state : AdfState := ⟨state.nodes + 1, key :: state.seen⟩
    let header ← Adf.block data key
    if be32 header 0 ≠ 2 ∨ Adf.blockChecksum header = false then
      .error (.diskImage "invalid ADF entry header")
    else
      let kind := Adf.signedBe32 header 508
      if kind = 2 then return .enter state (Adf.keys data header)
      else if kind = -3 then
        return .stay (← adfFileBlocks data variant key (be32 header 324) (Adf.pointers header) 0
          state)
      else return .stay state

/-- `_walk_adf`. -/
def walkAdf (frames : ℕ) : Except Exc Unit := do
  let root ← Adf.block data Adf.rootKey
  let _ ← walk Exc.tooDeep (adfLook maxNodes data variant) frames ⟨0, [Adf.rootKey]⟩
    (Adf.keys data root)
  return ()

end AdfWalk

/-- What the text of a `DiskImageError` is reported as. -/
def adfFinding (text : String) : String :=
  let message := lower text
  if mentions "cyclic" message then "ADF_CHAIN_LOOP"
  else if mentions "outside" message then "ADF_BLOCK_REFERENCE_OUT_OF_RANGE"
  else if mentions "truncated" message then "ADF_DATA_CHAIN_TRUNCATED"
  else "ADF_BLOCK_STRUCTURE_INVALID"

/-- The names of the DOS types. -/
def dosTypes : List String :=
  ["OFS", "FFS", "OFS_INTL", "FFS_INTL", "OFS_DIRCACHE", "FFS_DIRCACHE"]

/-- The finding about a bitmap pointer of the root block. -/
def bitmapFinding (data : Bytes) (key : ℕ) : Option String :=
  if key ≥ Adf.blocks then some "ADF_BLOCK_REFERENCE_OUT_OF_RANGE"
  else if Adf.blockChecksum (Adf.blockAt data key) = false then some "ADF_BITMAP_CHECKSUM_MISMATCH"
  else none

/-- The bitmap pointers that `_adf` looks at. -/
def bitmapKeys (root : Bytes) : List ℕ :=
  ((List.range 24).map fun i => be32 root (316 + 4 * i)).filter (· ≠ 0)

/-- `_adf`. -/
def adf (limits : StructuralLimits) (frames : ℕ) (data : Bytes) :
    Except Exc StructuralValidation :=
  let sizeValid := decide (data.length = Adf.standardSize)
  let variant := if data.length > 3 then dosTypes[u8 data 3]? else none
  let bootValid := decide (data.length ≥ 1024) && amigaBootChecksum (data.take 1024)
  let observations : List (String × Observed) :=
    [("ADF_SIZE_VALID", .bool sizeValid),
      ("ADF_DOSTYPE",
        if data.length > 3 then .text (PyStr.ofString s!"DOS\\{u8 data 3}") else .none),
      ("ADF_BOOTBLOCK_CHECKSUM_VALID", .bool bootValid)]
  let findings :=
    (if sizeValid then []
      else if data.length < Adf.standardSize then ["ADF_IMAGE_TRUNCATED"]
      else ["ADF_NON_STANDARD_SIZE"]) ++
    if bootValid then [] else ["BOOTBLOCK_CHECKSUM_MISMATCH"]
  -- the file begins with `DOS` here
  match Adf.variantOf data with
  | none =>
      let state := if data.length < Adf.standardSize then .truncated else .nonStandard
      .ok (result .adf variant state observations findings "COMPLETE")
  | some adfVariant =>
      let root := Adf.blockAt data Adf.rootKey
      let rootValid :=
        decide (be32 root 0 = 2 ∧ Adf.signedBe32 root 508 = 1) && Adf.blockChecksum root
      let bitmapFindings := (bitmapKeys root).filterMap (bitmapFinding data)
      let finish (referenceFindings : List String) : StructuralValidation :=
        let findings := findings ++ (if rootValid then [] else ["ROOTBLOCK_CHECKSUM_MISMATCH"]) ++
          bitmapFindings ++ referenceFindings
        let observations := observations ++
          [("ADF_ROOTBLOCK_CHECKSUM_VALID", .bool rootValid),
            ("ADF_BITMAP_VALID", .bool bitmapFindings.isEmpty),
            ("ADF_BLOCK_REFERENCE_VALID", .bool referenceFindings.isEmpty)]
        result .adf variant (if findings = [] then .valid else .damaged) observations findings
          "COMPLETE"
      match walkAdf limits.maxNodes data adfVariant frames with
      | .ok () => .ok (finish [])
      | .error exc =>
          if exc.family = .diskImageError then .ok (finish [adfFinding exc.text]) else .error exc

/-! ## FAT -/

/-- `_fat_value`. -/
def fatValue (data : Bytes) (vol : Fat.Volume) (cluster : ℕ) : ℕ :=
  let fat := Fat.fatBytes data vol
  match vol.variant with
  | .fat12 =>
      let pos := cluster + cluster / 2
      if pos + 2 > fat.length then 1
      else
        let value := le16 fat pos
        if cluster % 2 = 1 then value / 16 else value % 0x1000
  | .fat16 => if cluster * 2 + 2 > fat.length then 1 else le16 fat (cluster * 2)
  | .fat32 => if cluster * 4 + 4 > fat.length then 1 else le32 fat (cluster * 4) % 0x10000000

/-- The values from here on end a chain. -/
def eofMark : FatVariant → ℕ
  | .fat12 => 0xFF8
  | .fat16 => 0xFFF8
  | .fat32 => 0x0FFFFFF8

/-- What the FAT validator has found so far.  `used` holds the latest owner of each cluster
first. -/
structure FatState where
  used : List (ℕ × PyStr)
  reachable : List ℕ
  dirs : List ℕ
  findings : List String
  deriving DecidableEq

def FatState.report (state : FatState) (finding : String) : FatState :=
  { state with findings := state.findings ++ [finding] }

/-- `current in used and used[current] != owner`. -/
def FatState.usedByOther (state : FatState) (cluster : ℕ) (owner : PyStr) : Bool :=
  (state.used.lookup cluster).any (· ≠ owner)

/-- A subdirectory or file of the FAT validator, and the path of its directory. -/
structure FatItem where
  raw : Bytes
  head : PyStr
  deriving DecidableEq

section FatWalk

variable (maxNodes : ℕ) (data : Bytes) (vol : Fat.Volume)

/-- The loop of `_fat_chain`.  It comes back to a cluster at the latest when it has gone through all
of them. -/
def fatChainFrom (owner : PyStr) : ℕ → List ℕ → Bytes → ℕ → FatState → Bytes × FatState
  | 0, _, out, _, state => (out, state.report "FAT_CLUSTER_CHAIN_LOOP")
  | remaining + 1, seen, out, current, state =>
      if current < 2 then (out, state)
      else if current ∈ seen then (out, state.report "FAT_CLUSTER_CHAIN_LOOP")
      else if current ≥ vol.clusters + 2 then (out, state.report "FAT_CLUSTER_OUT_OF_RANGE")
      else if state.usedByOther current owner then (out, state.report "FAT_CROSSLINK_DETECTED")
      else
        let seen := current :: seen
        let state := { state with
          reachable := current :: state.reachable
          used := (current, owner) :: state.used }
        let start := Fat.clusterStart vol current
        let out := out ++ slice data start (start + vol.clusterSize)
        let value := fatValue data vol current
        if value ≥ eofMark vol.variant then (out, state)
        else if value < 2 ∨ value ≥ vol.clusters + 2 then
          (out, state.report "FAT_CLUSTER_REFERENCE_INVALID")
        else if seen.length > maxNodes then (out, state.report "FAT_CHAIN_LIMIT")
        else fatChainFrom owner remaining seen out value state

/-- `_fat_chain`. -/
def fatChain (start : ℕ) (owner : PyStr) (wanted : Option ℕ) (state : FatState) :
    Bytes × FatState :=
  let (out, state) := fatChainFrom maxNodes data vol owner (vol.clusters + 1) [] [] start state
  let state :=
    if wanted.any (out.length < ·) then state.report "FAT_FILE_CHAIN_TRUNCATED" else state
  (match wanted with | none => out | some size => out.take size, state)

/-- An erased row, a part of a long name, or a label. -/
def fatSkipped (raw : Bytes) : Bool :=
  decide (u8 raw 0 = 0xE5) || decide (u8 raw 11 = 0x0F) || (u8 raw 11).testBit 3

/-- The rows of a directory that `_fat_directory` looks at. -/
def fatRows (head : PyStr) (content : Bytes) : List FatItem :=
  ((((Fat.rows content).take maxNodes).takeWhile fun item => u8 item.1 0 ≠ 0).filter
    fun item => !fatSkipped item.1).map fun item => ⟨item.1, head⟩

/-- The name by which the validator knows a row. -/
def FatItem.name (item : FatItem) : PyStr := PyStr.strip (PyStr.decodeAscii (item.raw.take 11))

/-- `f"{prefix}/{name}"`. -/
def FatItem.owner (item : FatItem) : PyStr := item.head ++ PyStr.ofString "/" ++ item.name

def FatItem.isDirectory (item : FatItem) : Bool := (u8 item.raw 11).testBit 4

def FatItem.start (item : FatItem) : ℕ := le16 item.raw 26 + le16 item.raw 20 * 0x10000

def FatItem.size (item : FatItem) : ℕ := le32 item.raw 28

/-- What `_fat_directory` does with a row. -/
def fatLook (state : FatState) (item : FatItem) : Except Exc (Turn FatState FatItem) :=
  if item.name ∈ PyStr.dots then .ok (.stay state)
  else if item.isDirectory then
    if item.start ∈ state.dirs then .ok (.stay (state.report "FAT_DIRECTORY_LOOP"))
    else
      let state := { state with dirs := item.start :: state.dirs }
      let (child, state) := fatChain maxNodes data vol item.start item.owner none state
      .ok (.enter state (fatRows maxNodes item.owner child))
  else
    let (_, state) := fatChain maxNodes data vol item.start item.owner (some item.size) state
    .ok (.stay state)

/-- The content of the root directory, and the state after reading it. -/
def fatRoot : Bytes × FatState :=
  let state : FatState := ⟨[], [], [], []⟩
  if vol.variant = .fat32 then
    fatChain maxNodes data vol vol.rootCluster (PyStr.ofString "<root>") none state
  else
    let start := (vol.reserved + vol.fats * vol.fatSize) * vol.bps
    (slice data start (start + vol.rootSectors * vol.bps), state)

/-- The walk through the directories. -/
def walkFat (frames : ℕ) : Except Exc FatState :=
  let (root, state) := fatRoot maxNodes data vol
  walk Exc.tooDeep (fatLook maxNodes data vol) frames state (fatRows maxNodes [] root)

end FatWalk

/-- A copy of the FAT. -/
def fatCopy (data : Bytes) (vol : Fat.Volume) (i : ℕ) : Bytes :=
  slice data ((vol.reserved + i * vol.fatSize) * vol.bps)
    ((vol.reserved + (i + 1) * vol.fatSize) * vol.bps)

/-- `bpb_valid`. -/
def BpbValid (vol : Fat.Volume) (size : ℕ) : Prop :=
  vol.bps ∈ [512, 1024, 2048, 4096] ∧ 0 < vol.spc ∧ vol.spc &&& (vol.spc - 1) = 0 ∧
    0 < vol.reserved ∧ vol.fats ∈ [1, 2] ∧ vol.firstData < vol.total ∧
    vol.total * vol.bps ≤ size ∧ 0 < vol.fatSize

instance (vol : Fat.Volume) (size : ℕ) : Decidable (BpbValid vol size) := by
  unfold BpbValid
  infer_instance

/-- The clusters that the FAT says are in use and that the walk has not come to. -/
def orphans (data : Bytes) (vol : Fat.Volume) (reachable : List ℕ) : List ℕ :=
  ((List.range vol.clusters).map (· + 2)).filter fun c =>
    decide (fatValue data vol c ≠ 0 ∧ c ∉ reachable ∧ ¬(vol.variant = .fat32 ∧ c = 2))

/-- `_fat`. -/
def fat (limits : StructuralLimits) (frames : ℕ) (data : Bytes) :
    Except Exc StructuralValidation :=
  let vol := Fat.Volume.ofBoot data
  let variant := some vol.variant.text
  let observations : List (String × Observed) :=
    [("FAT_BPB_VALID", .bool (decide (BpbValid vol data.length))),
      ("FAT_VARIANT", .text (PyStr.ofString vol.variant.text))]
  if ¬BpbValid vol data.length then
    let state := if vol.total * max vol.bps 1 > data.length then .truncated else .corrupt
    .ok (result .fat variant state observations ["FAT_BPB_INCONSISTENT"] "COMPLETE")
  else do
    let copiesValid := decide (vol.fats < 2 ∨ fatCopy data vol 0 = fatCopy data vol 1)
    let final ← walkFat limits.maxNodes data vol frames
    let found := (if copiesValid then [] else ["FAT_COPIES_MISMATCH"]) ++ final.findings
    let orphans := orphans data vol final.reachable
    let findings := found ++ if orphans = [] then [] else ["FAT_ORPHAN_CLUSTERS_PRESENT"]
    let observations := observations ++
      [("FAT_COPIES_CONSISTENT", .bool copiesValid),
        ("FAT_CHAIN_VALID",
          .bool (!found.any fun f => mentions "CHAIN" f || mentions "CLUSTER" f)),
        ("FAT_ORPHAN_CLUSTERS", .int orphans.length)]
    return result .fat variant (if findings = [] then .valid else .damaged) observations findings
      "COMPLETE"

/-! ## RDB -/

/-- `_rdb_finding`. -/
def rdbFinding (error : String) : String :=
  let lower := lower error
  if mentions "cycle" lower then "RDB_POINTER_CYCLE"
  else if mentions "overlap" lower then "RDB_PARTITION_OVERLAP"
  else if mentions "outside" lower then "RDB_POINTER_OR_PARTITION_OUT_OF_RANGE"
  else if mentions "part block" lower then "RDB_PART_CHECKSUM_OR_STRUCTURE_INVALID"
  else if mentions "geometry" lower then "RDB_PARTITION_GEOMETRY_INVALID"
  else "RDB_STRUCTURE_WARNING"

/-- `_rdb`. -/
def rdb (data : Bytes) : Except Exc StructuralValidation :=
  let observations : List (String × Observed) :=
    [("RDB_FILESYSTEM_CODE_EXECUTION", .bool false),
      ("RDB_EMBEDDED_FILESYSTEM_CODE", .text (PyStr.ofString "DATA_ONLY"))]
  let finish (checksum : List (String × Observed)) (findings : List String) :
      StructuralValidation :=
    result .rdb (some "RDB") (if findings = [] then .valid else .damaged)
      (observations ++ checksum) findings "COMPLETE"
  match Partitions.parse data 256 with
  | .ok none => .ok (finish [] ["RDB_IDENTIFIER_INVALID"])
  | .ok (some table) =>
      .ok (finish [("RDB_CHECKSUM_VALID", .bool true)] (table.errors.map rdbFinding))
  | .error exc =>
      if exc.family = .partitionTableError then
        .ok (finish [("RDB_CHECKSUM_VALID", .bool false)]
          [if mentions "checksum" (lower exc.text) then "RDB_CHECKSUM_MISMATCH"
            else "RDB_STRUCTURE_INVALID"])
      else .error exc

/-! ## ISO 9660 -/

/-- What the loop over the volume descriptors has read. -/
structure Descriptors where
  count : ℕ
  pvd : Option Bytes
  terminator : Bool
  findings : List String
  deriving DecidableEq

/-- The loop over the volume descriptors. -/
def readDescriptors : List Bytes → Descriptors → Descriptors
  | [], read => read
  | block :: rest, read =>
      if block.length ≠ 2048 then
        { read with findings := read.findings ++ ["ISO_TRUNCATED_DESCRIPTOR"] }
      else if slice block 1 6 ≠ ascii "CD001" ∨ u8 block 6 ≠ 1 then
        { read with findings := read.findings ++ ["ISO_VOLUME_DESCRIPTOR_INVALID"] }
      else
        let read := { read with
          count := read.count + 1
          pvd := if u8 block 0 = 1 then some block else read.pvd }
        if u8 block 0 = 255 then { read with terminator := true } else readDescriptors rest read

/-- The sectors that may hold volume descriptors. -/
def descriptorSectors (data : Bytes) : List Bytes :=
  (List.range (min (data.length / 2048) 144 - 16)).map fun i =>
    slice data ((16 + i) * 2048) ((17 + i) * 2048)

/-- The volume descriptors of a file. -/
def volumeDescriptors (data : Bytes) : Descriptors :=
  readDescriptors (descriptorSectors data) ⟨0, none, false, []⟩

/-- What `_iso_directories` works on.  The record that was appended last is first in `pending`. -/
structure IsoState where
  pending : List Bytes
  seen : List (ℕ × ℕ)
  nodes : ℕ
  findings : List String
  deriving DecidableEq

def IsoState.report (state : IsoState) (finding : String) : IsoState :=
  { state with findings := state.findings ++ [finding] }

/-- The extent and the length in a directory record. -/
def isoKey (record : Bytes) : ℕ × ℕ := (le32 record 2, le32 record 10)

/-- A record that names a directory other than the one it is in and its parent. -/
def isoSubdirectory (row : Bytes) : Bool :=
  (u8 row 25).testBit 1 && decide (slice row 33 (33 + u8 row 32) ∉ [[0], [1]])

section Iso

variable (data : Bytes) (blockSize : ℕ)

/-- The extent does not lie within the file. -/
def OutOfFile (key : ℕ × ℕ) : Prop :=
  key.1 * blockSize > data.length ∨ key.2 > data.length - key.1 * blockSize

instance (key : ℕ × ℕ) : Decidable (OutOfFile data blockSize key) := by
  unfold OutOfFile
  infer_instance

/-- Where the loop over the records of a directory is.  `stopped` stands for its `break`. -/
structure IsoScan where
  pos : ℕ
  stopped : Bool
  state : IsoState
  deriving DecidableEq

/-- `while pos < len(directory)`. -/
def isoScanGoesOn (directory : Bytes) (scan : IsoScan) : Bool :=
  decide (scan.stopped = false ∧ scan.pos < directory.length)

/-- One pass of the loop over the records of a directory. -/
def isoRecord (directory : Bytes) (scan : IsoScan) : Except Exc IsoScan :=
  let pos := scan.pos
  let state := { scan.state with nodes := scan.state.nodes + 1 }
  let length := u8 directory pos
  if length = 0 then
    if blockSize = 0 then .error .zeroDivision
    else .ok ⟨(pos / blockSize + 1) * blockSize, false, state⟩
  else if length < 34 ∨ pos + length > directory.length then
    .ok ⟨pos, true, state.report "ISO_DIRECTORY_RECORD_MALFORMED"⟩
  else
    let row := slice directory pos (pos + length)
    if 33 + u8 row 32 > length then
      .ok ⟨pos, true, state.report "ISO_DIRECTORY_RECORD_MALFORMED"⟩
    else
      let state :=
        if OutOfFile data blockSize (isoKey row) then state.report "ISO_FILE_EXTENT_OUT_OF_RANGE"
        else state
      let state :=
        if isoSubdirectory row then { state with pending := row :: state.pending } else state
      .ok ⟨pos + length, false, state⟩

/-- The loop over the records of a directory. -/
def isoRecords (directory : Bytes) (state : IsoState) : Except Exc IsoState := do
  let final ← Loop.run Exc.unending (isoScanGoesOn directory) (isoRecord data blockSize directory)
    directory.length ⟨0, false, state⟩
  return final.state

/-- The content of the directory with an extent and a length. -/
def isoContent (key : ℕ × ℕ) : Bytes := slice data (key.1 * blockSize) (key.1 * blockSize + key.2)

/-- One pass of the loop over the pending directories. -/
def isoStep (state : IsoState) : Except Exc IsoState :=
  match state.pending with
  | [] => .ok state
  | record :: pending =>
      let state := { state with pending := pending }
      let key := isoKey record
      if key ∈ state.seen then .ok state
      else
        let state := { state with seen := key :: state.seen }
        if OutOfFile data blockSize key then
          .ok (state.report "ISO_DIRECTORY_EXTENT_OUT_OF_RANGE")
        else isoRecords data blockSize (isoContent data blockSize key) state

/-- The directory that is read next, if one is. -/
def isoNext (state : IsoState) : Option (ℕ × ℕ) :=
  match state.pending with
  | [] => none
  | record :: _ =>
      let key := isoKey record
      if key ∈ state.seen ∨ OutOfFile data blockSize key then none else some key

/-- `while pending and nodes < self.max_nodes`. -/
def isoGoesOn (maxNodes : ℕ) (state : IsoState) : Bool :=
  decide (state.pending ≠ [] ∧ state.nodes < maxNodes)

/-- `_iso_directories`: the findings that it appends. -/
def isoDirectories (maxNodes : ℕ) (root : Bytes) : Except Exc (List String) := do
  let final ← Loop.run Exc.unending (isoGoesOn maxNodes) (isoStep data blockSize)
    (2 ^ 64 * (data.length + 1) + 1) ⟨[root], [], 0, []⟩
  if final.pending ≠ [] ∨ final.nodes ≥ maxNodes then
    return final.findings ++ ["ISO_DIRECTORY_NODE_LIMIT"]
  else return final.findings

end Iso

/-- `_iso`. -/
def iso (limits : StructuralLimits) (data : Bytes) : Except Exc StructuralValidation := do
  let read := volumeDescriptors data
  let observations : List (String × Observed) :=
    [("ISO_PVD_VALID", .bool read.pvd.isSome),
      ("ISO_DESCRIPTOR_TERMINATOR_PRESENT", .bool read.terminator),
      ("ISO_DESCRIPTOR_COUNT", .int read.count)]
  let findings := read.findings ++
    (if read.pvd.isSome then [] else ["ISO_PRIMARY_VOLUME_DESCRIPTOR_MISSING"]) ++
    if read.terminator then [] else ["ISO_DESCRIPTOR_TERMINATOR_MISSING"]
  let finish (observations : List (String × Observed)) (findings : List String) :
      StructuralValidation :=
    let state :=
      if findings.any (mentions "TRUNCATED") then .truncated
      else if findings = [] then .valid
      else .damaged
    result .iso9660 (some "base") state observations findings "COMPLETE"
  match read.pvd with
  | none => return finish observations findings
  | some pvd =>
      let blockSize := le16 pvd 128
      let volumeBlocks := le32 pvd 80
      let findings := findings ++
        (if blockSize ≠ 2048 then ["ISO_LOGICAL_BLOCK_SIZE_INVALID"] else []) ++
        if volumeBlocks * max blockSize 1 > data.length then ["ISO_VOLUME_SPACE_OUT_OF_RANGE"]
        else []
      let below ← isoDirectories data blockSize limits.maxNodes (slice pvd 156 190)
      return finish (observations ++ [("ISO_LOGICAL_BLOCK_SIZE", .int blockSize)])
        (findings ++ below)

/-! ## LHA -/

/-- One bit of `_crc16`. -/
def crc16Bit (crc : ℕ) : ℕ := (crc >>> 1) ^^^ if crc % 2 = 1 then 0xA001 else 0

/-- `_crc16`. -/
def crc16 (data : Bytes) : ℕ :=
  data.foldl (fun crc byte => crc16Bit^[8] (crc ^^^ byte.toNat)) 0

/-- What the loop of `_lha` works on.  `stopped` stands for its `break`. -/
structure LhaState where
  pos : ℕ
  stopped : Bool
  members : ℕ
  findings : List String
  observations : List (String × Observed)
  deriving DecidableEq

def LhaState.report (state : LhaState) (finding : String) : LhaState :=
  { state with findings := state.findings ++ [finding] }

def LhaState.stop (state : LhaState) : LhaState := { state with stopped := true }

/-- One pass of the loop of `_lha`. -/
def lhaMember (data : Bytes) (state : LhaState) : LhaState :=
  let pos := state.pos
  if pos + 22 > data.length then (state.report "LHA_ARCHIVE_TRUNCATED").stop
  else
    let headerSize := u8 data pos
    let stop := pos + headerSize + 2
    if headerSize < 22 ∨ stop > data.length then (state.report "LHA_HEADER_MALFORMED").stop
    else
      let header := slice data pos stop
      let method := PyStr.decodeAscii (slice header 2 7)
      let state := { state with
        observations :=
          state.observations ++ [(s!"LHA_MEMBER_{state.members}_METHOD", Observed.text method)] }
      if method ≠ PyStr.ofString "-lh0-" then (state.report "LHA_METHOD_UNSUPPORTED").stop
      else
        let sum := ((slice header 2 (2 + headerSize)).map UInt8.toNat).sum
        let state :=
          if sum % 256 ≠ u8 header 1 then state.report "LHA_HEADER_CHECKSUM_MISMATCH" else state
        let packed := le32 header 7
        let crcPos := 22 + u8 header 21
        if crcPos + 2 > header.length then (state.report "LHA_HEADER_MALFORMED").stop
        else if stop + packed > data.length then (state.report "LHA_ARCHIVE_TRUNCATED").stop
        else
          let state :=
            if crc16 (slice data stop (stop + packed)) ≠ le16 header crcPos then
              state.report "LHA_MEMBER_CRC_MISMATCH"
            else state
          { state with members := state.members + 1, pos := stop + packed }

/-- `while pos < len(data) and data[pos] != 0 and members < self.max_nodes`. -/
def lhaGoesOn (maxNodes : ℕ) (data : Bytes) (state : LhaState) : Bool :=
  decide (state.stopped = false ∧ state.pos < data.length ∧ u8 data state.pos ≠ 0 ∧
    state.members < maxNodes)

/-- The loop of `_lha`. -/
def lhaMembers (maxNodes : ℕ) (data : Bytes) : Except Exc LhaState :=
  Loop.run Exc.unending (lhaGoesOn maxNodes data) (fun state => .ok (lhaMember data state))
    (data.length + 1) ⟨0, false, 0, [], []⟩

/-- `_lha`. -/
def lha (limits : StructuralLimits) (data : Bytes) : Except Exc StructuralValidation := do
  let final ← lhaMembers limits.maxNodes data
  let state :=
    if "LHA_ARCHIVE_TRUNCATED" ∈ final.findings then .truncated
    else if final.findings = [] then .valid
    else .damaged
  return result .lha (some "-lh0-") state
    (final.observations ++ [("LHA_MEMBER_COUNT", .int final.members)]) final.findings "COMPLETE"

/-! ## The validator -/

/-- `_fat_bpb_plausible`. -/
def fatBpbPlausible (head : Bytes) : Bool :=
  decide (head.length ≥ 512 ∧ le16 head 11 ∈ [512, 1024, 2048, 4096] ∧ u8 head 13 ≠ 0)

/-- The format `_validate` takes the file for. -/
def recognised (data : Bytes) : Option MediaFormat :=
  let head := data.take 65536
  if head.take 3 = ascii "DOS" then some .adf
  else if head.length ≥ 512 ∧ slice head 510 512 = [0x55, 0xAA] ∧ fatBpbPlausible head then
    some .fat
  else if (List.range (min 16 (head.length / 512))).any fun i =>
      decide (slice head (i * 512) (i * 512 + 4) = ascii "RDSK") then some .rdb
  else if head.length ≥ 0x8006 ∧ slice head 0x8001 0x8006 = ascii "CD001" then some .iso9660
  else if head.length ≥ 22 ∧ slice head 2 7 = ascii "-lh0-" then some .lha
  else none

/-- What is reported of a file above the byte limit. -/
def byteLimit (format : MediaFormat) (variant : Option String) : StructuralValidation :=
  result format variant .partially [] ["VALIDATION_BYTE_LIMIT"] "PARTIAL_LIMIT"

/-- `_validate`. -/
def validate (limits : StructuralLimits) (frames : ℕ) (data : Bytes) :
    Except Exc (Option StructuralValidation) :=
  match recognised data with
  | none => .ok none
  | some .adf =>
      if data.length > limits.maxBytes then .ok (some (byteLimit .adf none))
      else some <$> adf limits frames data
  | some .fat =>
      if data.length > limits.maxBytes then .ok (some (byteLimit .fat none))
      else some <$> fat limits frames data
  | some .rdb => some <$> rdb data
  | some .iso9660 => some <$> iso limits data
  | some .lha =>
      if data.length > limits.maxBytes then .ok (some (byteLimit .lha (some "-lh0-")))
      else some <$> lha limits data

end StructuralValidator

end AVBox
