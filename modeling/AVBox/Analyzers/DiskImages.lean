import AVBox.Analyzers.Cfb
import AVBox.Lib.Walk

/-!
# Disk images

`analyzers/disk_images.py`: the FAT and the Amiga ADF reader.  Each reads the directories of a
volume by a recursive walk, one call frame a directory, so `frames` is what the interpreter's
recursion limit leaves for it.

* A FAT directory is first read into rows with their names (`readRows`), then looked at row by row.
* An ADF directory is first read into the keys of its hash chains (`chainKeys`), then looked at
  key by key.

The walk keeps beside each entry the row it was read from, which the source does not.
-/

namespace AVBox

open Binary Walk

/-- `DiskImageError(text)`. -/
def Exc.diskImage (text : String) : Exc := ⟨.diskImageError, "DiskImageError", text⟩

/-- The exception is a `DiskImageError`. -/
def IsDiskImage (exc : Exc) : Prop := exc.family = .diskImageError

/-- What the interpreter raises when it runs out of call frames. -/
def Exc.tooDeep : Exc := ⟨.recursionError, "RecursionError", "maximum recursion depth exceeded"⟩

/-! ## Text -/

namespace PyStr

/-- Code page 437 from 0x80 on. -/
def cp437Upper : String :=
  "ÇüéâäàåçêëèïîìÄÅÉæÆôöòûùÿÖÜ¢£¥₧ƒáíóúñÑªº¿⌐¬½¼¡«»░▒▓│┤╡╢╖╕╣║╗╝╜╛┐" ++
    "└┴┬├─┼╞╟╚╔╩╦╠═╬╧╨╤╥╙╘╒╓╫╪┘┌█▄▌▐▀αßΓπΣσµτΦΘΩδ∞φε∩≡±≥≤⌠⌡÷≈°∙·√ⁿ²■\u00A0"

/-- `bytes.decode("cp437")`. -/
def decodeCp437 (bytes : Bytes) : PyStr :=
  bytes.map fun byte =>
    if byte.toNat < 0x80 then Fin.ofNat 0x110000 byte.toNat
    else (ofString cp437Upper).getD (byte.toNat - 0x80) 0xFFFD

/-- `{".", ".."}`. -/
def dots : List PyStr := [ofString ".", ofString ".."]

/-- `f"{head}/{name}" if head else name`. -/
def under (head name : PyStr) : PyStr := if head = [] then name else head ++ ofString "/" ++ name

end PyStr

/-! ## FAT -/

namespace Fat

/-- The fields of the boot sector. -/
structure Volume where
  bps : ℕ
  spc : ℕ
  reserved : ℕ
  fats : ℕ
  rootEntries : ℕ
  total : ℕ
  fatSize : ℕ
  rootCluster : ℕ
  deriving DecidableEq

/-- `short or long`. -/
def orLong (short long : ℕ) : ℕ := if short = 0 then long else short

def Volume.ofBoot (data : Bytes) : Volume where
  bps := le16 data 11
  spc := u8 data 13
  reserved := le16 data 14
  fats := u8 data 16
  rootEntries := le16 data 17
  total := orLong (le16 data 19) (le32 data 32)
  fatSize := orLong (le16 data 22) (le32 data 36)
  rootCluster := le32 data 44

namespace Volume

variable (vol : Volume)

def rootSectors : ℕ := (vol.rootEntries * 32 + vol.bps - 1) / vol.bps

def firstData : ℕ := vol.reserved + vol.fats * vol.fatSize + vol.rootSectors

def clusters : ℕ := (vol.total - vol.firstData) / vol.spc

def clusterSize : ℕ := vol.spc * vol.bps

def variant : FatVariant :=
  if vol.clusters < 4085 then .fat12 else if vol.clusters < 65525 then .fat16 else .fat32

/-- The conditions under which `_parse_fat` takes the file for a volume. -/
def Coherent (size : ℕ) : Prop :=
  vol.bps ∈ [512, 1024, 2048, 4096] ∧ vol.spc ≠ 0 ∧ vol.spc &&& (vol.spc - 1) = 0 ∧
    vol.reserved ≠ 0 ∧ vol.fats ∈ [1, 2] ∧ vol.total ≠ 0 ∧ vol.fatSize ≠ 0 ∧
    vol.total * vol.bps ≤ size ∧ vol.firstData < vol.total ∧
    ¬(vol.variant = .fat32 ∧ (vol.rootEntries ≠ 0 ∨ vol.rootCluster < 2))

instance (size : ℕ) : Decidable (vol.Coherent size) := by
  unfold Coherent
  infer_instance

end Volume

/-- The volume in a file, if `_parse_fat` takes it for one. -/
def volume (data : Bytes) : Option Volume :=
  if data.length < 512 ∨ slice data 510 512 ≠ [0x55, 0xAA] then none
  else
    let vol := Volume.ofBoot data
    if vol.Coherent data.length then some vol else none

section Clusters

variable (data : Bytes) (vol : Volume)

/-- The first FAT. -/
def fatBytes : Bytes :=
  slice data (vol.reserved * vol.bps) (vol.reserved * vol.bps + vol.fatSize * vol.bps)

/-- What `next_cluster` reads from the FAT for a cluster, and whether it ends the chain. -/
def readEntry (cluster : ℕ) : Except Exc (ℕ × Bool) :=
  let fat := fatBytes data vol
  match vol.variant with
  | .fat12 =>
      let pos := cluster + cluster / 2
      if pos + 2 > fat.length then .error (.diskImage "FAT12 entry lies outside the FAT")
      else
        let word := le16 fat pos
        let value := if cluster % 2 = 1 then word / 16 else word % 0x1000
        .ok (value, decide (value ≥ 0xFF8))
  | .fat16 =>
      let pos := cluster * 2
      if pos + 2 > fat.length then .error (.diskImage "FAT16 entry lies outside the FAT")
      else
        let value := le16 fat pos
        .ok (value, decide (value ≥ 0xFFF8))
  | .fat32 =>
      let pos := cluster * 4
      if pos + 4 > fat.length then .error (.diskImage "FAT32 entry lies outside the FAT")
      else
        let value := le32 fat pos % 0x10000000
        .ok (value, decide (value ≥ 0x0FFFFFF8))

/-- `next_cluster`. -/
def nextCluster (cluster : ℕ) : Except Exc (Option ℕ) := do
  let (value, eof) ← readEntry data vol cluster
  if eof then return none
  else if value < 2 ∨ value ≥ vol.clusters + 2 then
    .error (.diskImage "invalid FAT cluster chain")
  else return some value

/-- Where a cluster starts in the file. -/
def clusterStart (cluster : ℕ) : ℕ := (vol.firstData + (cluster - 2) * vol.spc) * vol.bps

/-- `cluster_data`. -/
def clusterData (cluster : ℕ) : Except Exc Bytes :=
  let start := clusterStart vol cluster
  let stop := start + vol.clusterSize
  if cluster < 2 ∨ stop > data.length then .error (.diskImage "cluster lies outside image")
  else .ok (slice data start stop)

/-- The loop of `chain`, which may go through `remaining` more clusters. -/
def chainFrom (wanted : Option ℕ) : ℕ → List ℕ → Bytes → ℕ → Except Exc Bytes
  | 0, _, _, _ => .error (.diskImage "cyclic FAT cluster chain")
  | remaining + 1, seen, out, current =>
      if current ∈ seen then .error (.diskImage "cyclic FAT cluster chain")
      else do
        let out := out ++ (← clusterData data vol current)
        if wanted.any (· ≤ out.length) then return out.take (wanted.getD 0)
        else match ← nextCluster data vol current with
          | some next => chainFrom wanted remaining (current :: seen) out next
          | none =>
              if wanted.isSome then .error (.diskImage "truncated FAT file") else return out

/-- `chain`. -/
def chain (start : ℕ) (wanted : Option ℕ) : Except Exc Bytes :=
  if start < 2 then
    if wanted.any (· ≠ 0) then .error (.diskImage "missing cluster") else .ok []
  else chainFrom data vol wanted (vol.clusters + 1) [] [] start

end Clusters

/-! ### Directories -/

/-- A row of a directory, under the name `walk` gives it. -/
structure Row where
  /-- The directory: the root, or the start cluster of another one. -/
  directory : Option ℕ
  index : ℕ
  raw : Bytes
  head : PyStr
  name : PyStr
  deriving DecidableEq

namespace Row

variable (row : Row)

def attr : ℕ := u8 row.raw 11

/-- `attr & 0x10`. -/
def isDirectory : Bool := row.attr.testBit 4

def start : ℕ := le16 row.raw 26 + le16 row.raw 20 * 0x10000

def size : ℕ := le32 row.raw 28

/-- `name in {".", ".."} or not name`. -/
def passedOver : Bool := decide (row.name ∈ PyStr.dots ∨ row.name = [])

def logical : PyStr := PyStr.under row.head row.name

end Row

/-- The text of a long-name row. -/
def longPart (raw : Bytes) : PyStr :=
  PyStr.rstripOf (fun c => c = 0xFFFF ∨ c = 0)
    (Cfb.decodeUtf16 (slice raw 1 11 ++ slice raw 14 26 ++ slice raw 28 32))

/-- The short name of a row. -/
def shortName (raw : Bytes) : PyStr :=
  let stem := PyStr.rstrip (PyStr.decodeCp437 (slice raw 0 8))
  let ext := PyStr.rstrip (PyStr.decodeCp437 (slice raw 8 11))
  stem ++ if ext = [] then [] else PyStr.ofString "." ++ ext

/-- The rows of a directory, each with its number. -/
def rows (directory : Bytes) : List (Bytes × ℕ) :=
  ((List.range (directory.length / 32)).map fun i =>
    slice directory (32 * i) (32 * i + 32)).zipIdx

/-- The loop of `walk` up to where a row is looked at: the rows that are neither erased nor part of
a long name nor a label, with their names, up to the end mark. -/
def readRows (directory : Option ℕ) (head : PyStr) :
    List PyStr → List (Bytes × ℕ) → List Row
  | _, [] => []
  | longParts, (raw, index) :: rest =>
      let attr := u8 raw 11
      if u8 raw 0 = 0 then []
      else if u8 raw 0 = 0xE5 then readRows directory head [] rest
      else if attr = 0x0F then readRows directory head (longPart raw :: longParts) rest
      else if attr.testBit 3 then readRows directory head [] rest
      else
        let name := if longParts = [] then shortName raw else longParts.flatten
        ⟨directory, index, raw, head, name⟩ :: readRows directory head [] rest

/-- The rows of a directory that `walk` looks at. -/
def listing (directory : Option ℕ) (head : PyStr) (content : Bytes) : List Row :=
  readRows directory head [] (rows content)

/-- An entry, and the row it was read from. -/
structure Found where
  row : Row
  entry : DiskEntry
  deriving DecidableEq

structure WalkState where
  found : List Found
  visitedDirs : List ℕ
  deriving DecidableEq

section Reader

variable (data : Bytes) (vol : Volume)

/-- What `walk` does with a row that has a name. -/
def look (state : WalkState) (row : Row) : Except Exc (Turn WalkState Row) :=
  if row.passedOver then .ok (.stay state)
  else if row.isDirectory then
    if row.start ∈ state.visitedDirs then .ok (.stay state)
    else do
      let content ← chain data vol row.start none
      return .enter { state with visitedDirs := row.start :: state.visitedDirs }
        (listing (some row.start) row.logical content)
  else do
    let content ← chain data vol row.start (some row.size)
    let entry : DiskEntry := ⟨row.logical, content, state.found.length⟩
    return .stay { state with found := state.found ++ [⟨row, entry⟩] }

/-- The content of the root directory. -/
def rootContent : Except Exc Bytes :=
  if vol.variant = .fat32 then chain data vol vol.rootCluster none
  else
    let start := (vol.reserved + vol.fats * vol.fatSize) * vol.bps
    .ok (slice data start (start + vol.rootSectors * vol.bps))

/-- The walk from the root. -/
def enumerate (frames : ℕ) : Except Exc (List Found) := do
  let root ← rootContent data vol
  let final ← walk Exc.tooDeep (look data vol) frames ⟨[], []⟩ (listing none [] root)
  return final.found

def label : Option PyStr :=
  let raw := if vol.variant = .fat32 then slice data 71 82 else slice data 43 54
  let text := PyStr.strip (PyStr.decodeAscii raw)
  if text = [] then none else some text

def image (found : List Found) : DiskImage where
  format := "raw-fat-image"
  filesystem := .fat vol.variant
  label := label data vol
  entries := found.map Found.entry

end Reader

/-- `_parse_fat`. -/
def parse (frames : ℕ) (data : Bytes) : Except Exc (Option DiskImage) :=
  match volume data with
  | none => .ok none
  | some vol => do
      let found ← enumerate data vol frames
      return some (image data vol found)

end Fat

/-! ## ADF -/

namespace Adf

/-- The size of a standard image. -/
def standardSize : ℕ := 901120

def blocks : ℕ := 1760

def rootKey : ℕ := 880

/-- `_signed_be32`. -/
def signedBe32 (data : Bytes) (offset : ℕ) : ℤ :=
  let value := be32 data offset
  if value < 2 ^ 31 then value else (value : ℤ) - 2 ^ 32

/-- The words of a block sum up to zero. -/
def blockChecksum (block : Bytes) : Bool :=
  decide (((List.range 128).map fun i => be32 block (4 * i)).sum % 2 ^ 32 = 0)

/-- The bytes of a block. -/
def blockAt (data : Bytes) (key : ℕ) : Bytes := slice data (key * 512) ((key + 1) * 512)

/-- `block`. -/
def block (data : Bytes) (key : ℕ) : Except Exc Bytes :=
  if key < 2 ∨ key ≥ blocks then .error (.diskImage "ADF block pointer lies outside image")
  else .ok (blockAt data key)

/-- `bstr`. -/
def bstr (value : Bytes) (offset : ℕ) : Except Exc PyStr :=
  let length := u8 value offset
  if length > 107 ∨ offset + 1 + length > value.length then
    .error (.diskImage "invalid ADF counted string")
  else .ok (Partitions.latin1 (slice value (offset + 1) (offset + 1 + length)))

/-- The data block pointers of a file header, first block first. -/
def pointers (header : Bytes) : List ℕ :=
  (((List.range 72).map fun i => be32 header (24 + 4 * i)).reverse).filter (· ≠ 0)

/-- The payload of a data block. -/
def payload (variant : AdfVariant) (headerKey : ℕ) (value : Bytes) : Except Exc Bytes :=
  match variant with
  | .ffs => .ok value
  | .ofs =>
      if be32 value 0 ≠ 8 ∨ be32 value 4 ≠ headerKey then
        .error (.diskImage "invalid OFS data block")
      else
        let count := be32 value 12
        if count > 488 ∨ blockChecksum value = false then
          .error (.diskImage "invalid OFS data block size/checksum")
        else .ok (slice value 24 (24 + count))

section Reader

variable (data : Bytes) (variant : AdfVariant)

/-- The loop of `file_data`. -/
def fileBlocks (headerKey size : ℕ) : List ℕ → List ℕ → Bytes → Except Exc Bytes
  | [], _, out =>
      if out.length ≠ size then .error (.diskImage "truncated ADF file") else .ok out
  | key :: rest, seen, out =>
      if key ∈ seen then .error (.diskImage "cyclic ADF file block list")
      else do
        let value ← block data key
        let out := out ++ (← payload variant headerKey value)
        if out.length ≥ size then return out.take size
        else fileBlocks headerKey size rest (key :: seen) out

/-- `file_data`. -/
def fileData (header : Bytes) (headerKey : ℕ) : Except Exc Bytes :=
  fileBlocks data variant headerKey (be32 header 324) (pointers header) [] []

/-- The keys of a hash chain.  The chain ends at a zero key or at one outside the image, and it is
not followed further than it can go without coming back to a key. -/
def chainKeys : ℕ → ℕ → List ℕ
  | remaining, key =>
      if key = 0 then []
      else key :: match remaining with
        | 0 => []
        | remaining + 1 =>
            if key < 2 ∨ key ≥ blocks then []
            else chainKeys remaining (be32 (blockAt data key) 496)

/-- An entry of a directory, and the path of the directory. -/
structure Item where
  key : ℕ
  head : PyStr
  deriving DecidableEq

/-- The keys of the entries of a directory, in the order of its hash table. -/
def keys (directory : Bytes) : List ℕ :=
  (List.range 72).flatMap fun bucket =>
    chainKeys data blocks (be32 directory (24 + bucket * 4))

/-- The entries of a directory. -/
def listing (head : PyStr) (directory : Bytes) : List Item :=
  (keys data directory).map fun key => ⟨key, head⟩

structure WalkState where
  entries : List DiskEntry
  visited : List ℕ
  deriving DecidableEq

/-- What `walk_directory` does with an entry.  A key that its hash chain has come to before has
been visited. -/
def look (state : WalkState) (item : Item) : Except Exc (Turn WalkState Item) :=
  if item.key ∈ state.visited then .error (.diskImage "cyclic ADF directory hash chain")
  else do
    let state := { state with visited := item.key :: state.visited }
    let header ← block data item.key
    if be32 header 0 ≠ 2 ∨ blockChecksum header = false then
      .error (.diskImage "invalid ADF entry header")
    else
      let kind := signedBe32 header 508
      let name ← bstr header 432
      if name = [] ∨ 0x2F ∈ name ∨ 0x5C ∈ name ∨ name ∈ PyStr.dots then
        .error (.diskImage "unsafe ADF entry name")
      else
        let logical := PyStr.under item.head name
        if kind = 2 then return .enter state (listing data logical header)
        else if kind = -3 then do
          let content ← fileData data variant header item.key
          let entry : DiskEntry := ⟨logical, content, state.entries.length⟩
          return .stay { state with entries := state.entries ++ [entry] }
        else .error (.diskImage "unsupported ADF entry type")

end Reader

/-- The variant of a file of the standard size, by its DOS type. -/
def variantOf (data : Bytes) : Option AdfVariant :=
  if data.length ≠ standardSize ∨ data.take 3 ≠ ascii "DOS" then none
  else if u8 data 3 = 0 then some .ofs
  else if u8 data 3 = 1 then some .ffs
  else none

/-- `_parse_adf`. -/
def parse (frames : ℕ) (data : Bytes) : Except Exc (Option DiskImage) :=
  match variantOf data with
  | none => .ok none
  | some variant => do
      let root ← block data rootKey
      if be32 root 0 ≠ 2 ∨ signedBe32 root 508 ≠ 1 then return none
      else if blockChecksum root = false then
        .error (.diskImage "invalid ADF root block checksum")
      else
        let final ← walk Exc.tooDeep (look data variant) frames ⟨[], [rootKey]⟩
          (listing data [] root)
        let name ← bstr root 432
        return some
          { format := "amiga-adf"
            filesystem := .adf variant
            label := if name = [] then none else some name
            entries := final.entries }

end Adf

/-- `parse_disk_image`. -/
def parseDiskImage (frames : ℕ) (data : Bytes) : Except Exc (Option DiskImage) := do
  match ← Fat.parse frames data with
  | some image => return some image
  | none => Adf.parse frames data

/-- The decoders with these readers as the one for disk images. -/
def withDiskImages (frames : ℕ) (env : ExtractEnv) : ExtractEnv :=
  { env with parseDiskImage := parseDiskImage frames }

end AVBox
