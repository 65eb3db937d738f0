import AVBox.Analyzers.Extraction

/-!
# Compound files

`_parse_cfb` of `analyzers/document.py`: the header, the allocation table, the directory with its
tree of paths, and the contents of the streams.  What the parser only reports about a file
(its family, class ids, VBA modules) is left out.
-/

namespace AVBox

open Binary

/-- The settings of `RuntimeSettings` that bound the document parsers. -/
structure DocumentLimits where
  maxDocumentParserBytes : ℕ
  maxDocumentComponents : ℕ
  maxDocumentXmlDepth : ℕ
  maxRtfGroupDepth : ℕ
  maxSingleChildBytes : ℕ
  metadataMaxFields : ℕ
  deriving DecidableEq

/-- The default settings. -/
def DocumentLimits.default : DocumentLimits where
  maxDocumentParserBytes := 64 * 1024 * 1024
  maxDocumentComponents := 10000
  maxDocumentXmlDepth := 64
  maxRtfGroupDepth := 256
  maxSingleChildBytes := 64 * 1024 * 1024
  metadataMaxFields := 256

/-- `DocumentError(text)`. -/
def Exc.document (text : String) : Exc := ⟨.documentError, "DocumentError", text⟩

namespace Cfb

/-! ## Header and sectors -/

/-- The sector numbers from here on are marks, not sectors. -/
def mark : ℕ := 0xFFFFFFFA

structure Header where
  sectorSize : ℕ
  totalSectors : ℕ
  firstDir : ℕ
  miniCutoff : ℕ
  firstMinifat : ℕ
  minifatCount : ℕ
  fatSectors : List ℕ
  deriving DecidableEq

def parseHeader (data : Bytes) : Except Exc Header :=
  if data.length < 512 then .error (.document "truncated CFB header")
  else
    let sectorSize := 2 ^ le16 data 30
    let fatCount := le32 data 44
    let fatSectors := ((words32 (data.drop 76) 109).filter (· < mark)).take fatCount
    if le16 data 26 ∉ [3, 4] ∨ sectorSize ∉ [512, 4096] ∨ 2 ^ le16 data 32 ≠ 64 then
      .error (.document "invalid CFB version or sector geometry")
    else if fatCount > 109 ∨ fatSectors.length ≠ fatCount then
      .error (.document "CFB DIFAT extension unsupported or corrupt")
    else
      .ok
        { sectorSize := sectorSize
          totalSectors := (data.length - 512) / sectorSize
          firstDir := le32 data 48
          miniCutoff := le32 data 56
          firstMinifat := le32 data 60
          minifatCount := le32 data 64
          fatSectors := fatSectors }

/-- `sector`. -/
def sector (data : Bytes) (header : Header) (sid : ℕ) : Except Exc Bytes :=
  if sid ≥ header.totalSectors then .error (.document "CFB sector outside file")
  else
    let offset := 512 + sid * header.sectorSize
    .ok (slice data offset (offset + header.sectorSize))

/-- The sectors of a list, joined. -/
def sectors (data : Bytes) (header : Header) (sids : List ℕ) : Except Exc Bytes := do
  return (← sids.mapM (sector data header)).flatten

/-- All 32-bit words of a byte string. -/
def table (data : Bytes) : List ℕ := words32 data (data.length / 4)

/-- The rest of a chain: `seen` is what it has gone through, `remaining` what it may still go
through. -/
def chainFrom (entries : List ℕ) : ℕ → List ℕ → ℕ → Except Exc (List ℕ)
  | remaining, seen, current =>
      if current ≥ mark then .ok []
      else match remaining, entries[current]? with
        | remaining + 1, some next =>
            if current ∈ seen then .error (.document "CFB cyclic or excessive allocation chain")
            else do
              let rest ← chainFrom entries remaining (current :: seen) next
              return current :: rest
        | _, _ => .error (.document "CFB cyclic or excessive allocation chain")

/-- `chain`. -/
def chain (start : ℕ) (entries : List ℕ) (maximum : ℕ) : Except Exc (List ℕ) :=
  chainFrom entries maximum [] start

/-! ## Directory -/

structure CfbEntry where
  entryId : ℕ
  name : PyStr
  kind : ℕ
  start : ℕ
  size : ℕ
  leftSibling : ℕ
  rightSibling : ℕ
  child : ℕ
  data : Bytes
  path : PyStr
  deriving DecidableEq

/-- `bytes.decode("utf-16le", "replace")`. -/
def decodeUtf16 : Bytes → PyStr
  | [] => []
  | [_] => [0xFFFD]
  | low :: high :: rest =>
      let unit := low.toNat + 256 * high.toNat
      if unit < 0xD800 ∨ 0xDFFF < unit then Fin.ofNat 0x110000 unit :: decodeUtf16 rest
      else if 0xDC00 ≤ unit then 0xFFFD :: decodeUtf16 rest
      else match rest with
        | low' :: high' :: rest' =>
            let second := low'.toNat + 256 * high'.toNat
            if 0xDC00 ≤ second ∧ second ≤ 0xDFFF then
              Fin.ofNat 0x110000 (0x10000 + (unit - 0xD800) * 0x400 + (second - 0xDC00)) ::
                decodeUtf16 rest'
            else 0xFFFD :: decodeUtf16 (low' :: high' :: rest')
        | _ => [0xFFFD]

/-- The entry in a slot of the directory, if there is one. -/
def readEntry (slot : Bytes × ℕ) : Option CfbEntry :=
  let raw := slot.1
  let nameLength := le16 raw 64
  if u8 raw 66 = 0 ∨ nameLength < 2 ∨ 64 < nameLength then none
  else
    some
      { entryId := slot.2
        name := (decodeUtf16 (raw.take (nameLength - 2))).take 4096
        kind := u8 raw 66
        start := le32 raw 116
        size := le64 raw 120
        leftSibling := le32 raw 68
        rightSibling := le32 raw 72
        child := le32 raw 76
        data := []
        path := [] }

/-- The entries of a directory. -/
def readEntries (directory : Bytes) (maxComponents : ℕ) : Except Exc (List CfbEntry) :=
  let slots := (chunks 128 directory).zipIdx.takeWhile fun slot => slot.1.length = 128
  let entries := slots.filterMap readEntry
  if entries.length > maxComponents then .error (.document "CFB directory entry limit exceeded")
  else .ok entries

/-! ## Paths -/

/-- What `assign_tree` changes: the ids it has seen, and the paths it has assigned, the last one
first. -/
structure Tree where
  seen : List ℕ
  paths : List (ℕ × PyStr)
  deriving DecidableEq

/-- What a recursion without stack left raises. -/
def stackOverflow : Exc := ⟨.recursionError, "RecursionError", "maximum recursion depth exceeded"⟩

/-- `f"{parent}/{name}" if parent else name`. -/
def joinPath (parent name : PyStr) : PyStr := if parent = [] then name else parent ++ 0x2F :: name

/-- `assign_tree`, with the number of calls that can still be nested. -/
def assignTree (entries : List CfbEntry) : ℕ → ℕ → PyStr → Tree → Except Exc Tree
  | 0, _, _, _ => .error stackOverflow
  | frames + 1, id, parent, tree =>
      match entries.find? fun entry => entry.entryId = id with
      | none => .ok tree
      | some entry =>
          if id ≥ mark ∨ id ∈ tree.seen then .ok tree
          else do
            let tree ← assignTree entries frames entry.leftSibling parent
              { tree with seen := id :: tree.seen }
            let path := joinPath parent entry.name
            let tree := { tree with paths := (id, path) :: tree.paths }
            let tree ← if entry.kind = 1 then assignTree entries frames entry.child path tree
              else pure tree
            assignTree entries frames entry.rightSibling parent tree

/-- The root entry. -/
def rootOf (entries : List CfbEntry) : Option CfbEntry := entries.find? fun entry => entry.kind = 5

/-- The paths of all entries. -/
def assignPaths (frames : ℕ) (entries : List CfbEntry) : Except Exc (List CfbEntry) :=
  match rootOf entries with
  | none => .ok entries
  | some root => do
      let tree ← assignTree entries frames root.child [] ⟨[], [(root.entryId, root.name)]⟩
      return entries.map fun entry =>
        { entry with
          path := ((tree.paths.find? fun item => item.1 = entry.entryId).map (·.2)).getD [] }

/-! ## Streams -/

/-- The mini allocation table. -/
def readMinifat (data : Bytes) (header : Header) (fat : List ℕ) : Except Exc (List ℕ) :=
  if header.minifatCount ≠ 0 ∧ header.firstMinifat < mark then do
    return table (← sectors data header (← chain header.firstMinifat fat header.minifatCount))
  else .ok []

/-- The mini stream, which the root entry holds. -/
def readMinistream (data : Bytes) (header : Header) (fat : List ℕ) (maxComponents : ℕ)
    (root : Option CfbEntry) : Except Exc Bytes :=
  match root with
  | some root =>
      if root.size ≠ 0 ∧ root.start < mark then do
        return (← sectors data header (← chain root.start fat maxComponents)).take root.size
      else .ok []
  | none => .ok []

/-- Where the streams of a file are found. -/
structure Storage where
  data : Bytes
  header : Header
  fat : List ℕ
  minifat : List ℕ
  ministream : Bytes

/-- The content of an entry: that of a stream which is too large stays empty. -/
def readStream (limits : DocumentLimits) (storage : Storage) (entry : CfbEntry) :
    Except Exc Bytes :=
  if entry.kind ≠ 2 ∨ entry.size = 0 then .ok []
  else if entry.size > limits.maxDocumentParserBytes then .ok []
  else if entry.size < storage.header.miniCutoff ∧ storage.minifat ≠ [] ∧
      storage.ministream ≠ [] then do
    let sids ← chain entry.start storage.minifat limits.maxDocumentComponents
    let pieces := sids.map fun sid => slice storage.ministream (sid * 64) ((sid + 1) * 64)
    return pieces.flatten.take entry.size
  else if entry.start < mark then do
    let sids ← chain entry.start storage.fat limits.maxDocumentComponents
    return (← sectors storage.data storage.header sids).take entry.size
  else .ok []

/-- The directory of a compound file, with paths and contents. -/
def parse (limits : DocumentLimits) (frames : ℕ) (data : Bytes) : Except Exc (List CfbEntry) := do
  let header ← parseHeader data
  let fat := table (← sectors data header header.fatSectors)
  let directory ← sectors data header
    (← chain header.firstDir fat limits.maxDocumentComponents)
  let entries ← assignPaths frames (← readEntries directory limits.maxDocumentComponents)
  let minifat ← readMinifat data header fat
  let ministream ← readMinistream data header fat limits.maxDocumentComponents (rootOf entries)
  entries.mapM fun entry => do
    return { entry with data := ← readStream limits ⟨data, header, fat, minifat, ministream⟩ entry }

end Cfb

end AVBox
