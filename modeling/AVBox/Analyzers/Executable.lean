import AVBox.Analyzers.Partitions
import AVBox.Lib.Loop

/-!
# Executables

`analyzers/executable.py`: the bounded reader of MZ, NE, LE/LX, PE, ELF, HUNK and Mach-O headers.

A fixed-size read raises `struct.error` when the bytes are not there, and `data[i]` raises
`IndexError`; what `need` has checked before does not enter the definitions.  The loops of the
HUNK reader that Python leaves unbounded are given fuel, and `Exc.unending` stands for a run that
goes on for longer.
-/

namespace AVBox

open Binary Loop

/-- `ExecutableError(text)`, a subclass of `ValueError`. -/
def Exc.executable (text : String) : Exc := ⟨.valueError, "ExecutableError", text⟩

/-- The exception is an `ExecutableError`. -/
def IsExecutable (exc : Exc) : Prop := exc.family = .valueError ∧ exc.name = "ExecutableError"

/-- `struct.error`, raised by `struct.unpack_from` on a buffer that is too small. -/
def Exc.struct (offset size length : ℕ) : Exc :=
  ⟨.other, "error", s!"unpack_from requires a buffer of at least {offset + size} bytes for " ++
    s!"unpacking {size} bytes at offset {offset} (actual buffer size is {length})"⟩

/-- `IndexError`, raised by `data[i]`. -/
def Exc.index : Exc := ⟨.other, "IndexError", "index out of range"⟩

/-! ## Text -/

namespace PyStr

/-- What a lead byte announces: the number of bytes to come, the range of the first of them, and
its own bits. -/
def utf8Lead (byte : ℕ) : Option (ℕ × ℕ × ℕ × ℕ) :=
  if byte < 0x80 then some (0, 0, 0, byte)
  else if byte < 0xC2 then none
  else if byte < 0xE0 then some (1, 0x80, 0xBF, byte - 0xC0)
  else if byte < 0xF0 then
    some (2, if byte = 0xE0 then 0xA0 else 0x80, if byte = 0xED then 0x9F else 0xBF, byte - 0xE0)
  else if byte < 0xF5 then
    some (3, if byte = 0xF0 then 0x90 else 0x80, if byte = 0xF4 then 0x8F else 0xBF, byte - 0xF0)
  else none

/-- The rest of a character.  A sequence that breaks off is replaced, and the byte that breaks it
off is read again. -/
def utf8Rest : ℕ → ℕ → ℕ → ℕ → Bytes → Fin 0x110000 × Bytes
  | 0, _, _, value, bytes => (Fin.ofNat 0x110000 value, bytes)
  | _ + 1, _, _, _, [] => (0xFFFD, [])
  | left + 1, low, high, value, byte :: bytes =>
      if low ≤ byte.toNat ∧ byte.toNat ≤ high then
        utf8Rest left 0x80 0xBF (value * 64 + byte.toNat % 64) bytes
      else (0xFFFD, byte :: bytes)

def decodeUtf8From : ℕ → Bytes → PyStr
  | _, [] => []
  | 0, _ => []
  | fuel + 1, byte :: bytes =>
      match utf8Lead byte.toNat with
      | none => 0xFFFD :: decodeUtf8From fuel bytes
      | some (left, low, high, value) =>
          let (character, rest) := utf8Rest left low high value bytes
          character :: decodeUtf8From fuel rest

/-- `bytes.decode("utf-8", errors="replace")`. -/
def decodeUtf8 (bytes : Bytes) : PyStr := decodeUtf8From bytes.length bytes

end PyStr

/-- The digits of `f"{n:0{width}x}"`. -/
def hexDigits (width n : ℕ) : String := String.ofList ((Nat.toDigits 16 n).leftpad width '0')

/-- `bytes.hex()`. -/
def hex (bytes : Bytes) : String := String.join (bytes.map fun byte => hexDigits 2 byte.toNat)

namespace Executable

/-! ## Bounds and tables -/

def maxHeaders : ℕ := 4096

def maxSections : ℕ := 1024

def maxSymbols : ℕ := 100000

def maxImports : ℕ := 16384

def maxName : ℕ := 4096

/-- A value of a table, or what stands for one it does not list. -/
def named (table : List (ℕ × String)) (key : ℕ) (unknown : String) : String :=
  (table.lookup key).getD unknown

def peMachines : List (ℕ × String) :=
  [(0x014C, "I386"), (0x8664, "AMD64"), (0x01C0, "ARM"), (0xAA64, "ARM64")]

def elfMachines : List (ℕ × String) :=
  [(3, "I386"), (8, "MIPS"), (20, "PPC"), (40, "ARM"), (62, "X86_64"), (183, "AARCH64")]

def hunkTypes : List (ℕ × String) :=
  [(0x3E7, "HUNK_UNIT"), (0x3E8, "HUNK_NAME"), (0x3E9, "HUNK_CODE"), (0x3EA, "HUNK_DATA"),
    (0x3EB, "HUNK_BSS"), (0x3EC, "HUNK_RELOC32"), (0x3ED, "HUNK_RELOC16"),
    (0x3EE, "HUNK_RELOC8"), (0x3EF, "HUNK_EXT"), (0x3F0, "HUNK_SYMBOL"), (0x3F1, "HUNK_DEBUG"),
    (0x3F2, "HUNK_END"), (0x3F3, "HUNK_HEADER"), (0x3F5, "HUNK_OVERLAY"), (0x3F6, "HUNK_BREAK"),
    (0x3F7, "HUNK_DREL32"), (0x3F8, "HUNK_DREL16"), (0x3F9, "HUNK_DREL8"),
    (0x3FC, "HUNK_RELRELOC32"), (0x3FD, "HUNK_ABSRELOC16")]

def leMachines : List (ℕ × String) := [(1, "I286"), (2, "I386"), (3, "I486"), (4, "I586")]

def machoMachines : List (ℕ × String) :=
  [(7, "I386"), (0x01000007, "X86_64"), (12, "ARM"), (0x0100000C, "ARM64")]

def directoryNames : List String :=
  ["export", "import", "resource", "exception", "security", "relocation", "debug",
    "architecture", "global_ptr", "tls", "load_config", "bound_import", "iat", "delay_import",
    "clr", "reserved"]

/-! ## What is observed -/

inductive Confidence
  | high
  | medium
  | low
  | unknown
  deriving DecidableEq, Repr

structure Assessment where
  assessmentType : String
  analyzerId : String
  statement : String
  confidence : Confidence
  evidenceRefs : List String
  deriving DecidableEq, Repr

structure MzHeader where
  dosHeaderPresent : Bool
  pages : ℕ
  lastPageBytes : ℕ
  headerParagraphs : ℕ
  relocationCount : ℕ
  relocationTableOffset : ℕ
  initialCs : ℕ
  initialIp : ℕ
  initialSs : ℕ
  initialSp : ℕ
  newHeaderOffset : ℕ
  deriving DecidableEq

/-- What the header behind the MZ header adds. -/
inductive Extension
  | ne (headerOffset linkerMajor linkerMinor entryIp entryCs segmentCount moduleReferenceCount
      targetOs flags : ℕ)
  | le (headerOffset byteOrder wordOrder targetOs moduleFlags objectCount entryObject
      entryOffset : ℕ)
  deriving DecidableEq

structure PeCoff where
  dosHeaderPresent : Bool
  peSignature : String
  machine : ℕ
  timestampRaw : ℕ
  characteristics : ℕ
  sectionCount : ℕ
  deriving DecidableEq

structure PeOptional where
  entryPointRva : ℕ
  imageBase : ℕ
  subsystem : ℕ
  dllCharacteristics : ℕ
  deriving DecidableEq

structure PeSection where
  index : ℕ
  name : PyStr
  rva : ℕ
  virtualSize : ℕ
  rawOffset : ℕ
  rawSize : ℕ
  characteristics : ℕ
  deriving DecidableEq

structure PeDirectory where
  index : ℕ
  name : String
  rva : ℕ
  size : ℕ
  deriving DecidableEq

inductive PeSymbol
  | ordinal (value : ℕ)
  | name (text : PyStr)
  deriving DecidableEq

structure PeImport where
  library : PyStr
  symbols : List PeSymbol
  deriving DecidableEq

structure PeExport where
  name : PyStr
  ordinal : ℕ
  deriving DecidableEq

structure PeOverlay where
  present : Bool
  offset : ℕ
  size : ℕ
  deriving DecidableEq

structure ElfHeader where
  elfClass : ℕ
  endianness : String
  osAbi : ℕ
  objectType : ℕ
  machine : ℕ
  version : ℕ
  entryPoint : ℕ
  flags : ℕ
  headerSize : ℕ
  deriving DecidableEq

structure ElfProgram where
  index : ℕ
  type : ℕ
  flags : ℕ
  offset : ℕ
  virtualAddress : ℕ
  fileSize : ℕ
  memorySize : ℕ
  alignment : ℕ
  deriving DecidableEq

structure ElfSection where
  index : ℕ
  name : PyStr
  type : ℕ
  flags : ℕ
  offset : ℕ
  size : ℕ
  deriving DecidableEq

/-- What the dynamic sections, the symbol tables and the notes add up to. -/
structure ElfDynamic where
  needed : List PyStr
  soname : Option PyStr
  rpath : Option PyStr
  runpath : Option PyStr
  symbolCount : ℕ
  buildId : Option String
  deriving DecidableEq

structure DeclaredHunk where
  sizeLongs : ℕ
  memoryFlags : ℕ
  deriving DecidableEq

structure HunkHeader where
  residentNames : List PyStr
  hunkCount : ℕ
  firstHunk : ℕ
  lastHunk : ℕ
  declaredHunks : List DeclaredHunk
  deriving DecidableEq

structure Relocations where
  targetHunk : ℕ
  offsets : List ℕ
  deriving DecidableEq

structure HunkSymbol where
  name : PyStr
  value : ℕ
  deriving DecidableEq

/-- The keys of a record beside the ones that every record has. -/
inductive HunkBody
  | block (sizeLongs sizeBytes : ℕ)
  | relocations (groups : List Relocations)
  | symbols (symbols : List HunkSymbol)
  | ended
  | unsupported
  deriving DecidableEq

structure HunkRecord where
  typeId : ℕ
  type : String
  memoryFlags : ℕ
  hunkIndex : ℕ
  body : HunkBody
  deriving DecidableEq

structure FatArchitecture where
  index : ℕ
  cpuType : ℕ
  cpuSubtype : ℕ
  offset : ℕ
  size : ℕ
  alignmentPower : ℕ
  deriving DecidableEq

structure MachoHeader where
  magic : String
  endianness : String
  cpuType : ℕ
  cpuSubtype : ℕ
  fileType : ℕ
  loadCommandCount : ℕ
  loadCommandBytes : ℕ
  flags : ℕ
  deriving DecidableEq

structure LoadCommand where
  index : ℕ
  command : ℕ
  size : ℕ
  offset : ℕ
  deriving DecidableEq

/-- The observations of a format.  The constructors and fields stand for the keys. -/
inductive Observations
  | mz (header : MzHeader) (extension : Option Extension)
  | pe (coff : PeCoff) (optional : PeOptional) (sections : List PeSection)
      (directories : List PeDirectory) (imports : List PeImport) (exports : List PeExport)
      (overlay : PeOverlay)
  | elf (header : ElfHeader) (programs : List ElfProgram) (sections : List ElfSection)
      (interpreter : Option PyStr) (dynamic : ElfDynamic)
  | hunk (header : HunkHeader) (records : List HunkRecord)
  | machoFat (architectures : List FatArchitecture)
  | macho (header : MachoHeader) (loads : List LoadCommand)
  deriving DecidableEq

structure ParsedExecutable where
  format : String
  architecture : Option String
  observations : Observations
  assessments : List Assessment
  errors : List String
  deriving DecidableEq

/-! ## Reading -/

/-- `_need`. -/
def need (data : Bytes) (offset size : ℕ) (what : String) : Except Exc Unit :=
  if offset > data.length ∨ size > data.length - offset then
    .error (.executable s!"truncated {what}")
  else .ok ()

/-- `struct.unpack_from` with a format of `size` bytes. -/
def unpackFrom {α : Type} (data : Bytes) (offset size : ℕ) (fields : α) : Except Exc α :=
  if offset + size ≤ data.length then .ok fields
  else .error (.struct offset size data.length)

/-- `data[i]`. -/
def byteAt (data : Bytes) (i : ℕ) : Except Exc ℕ :=
  if i < data.length then .ok (u8 data i) else .error .index

inductive Endian
  | little
  | big
  deriving DecidableEq

/-- A field of `width` bytes. -/
def Endian.word (endian : Endian) (data : Bytes) (offset width : ℕ) : ℕ :=
  match endian with
  | .little => leNat (slice data offset (offset + width))
  | .big => beNat (slice data offset (offset + width))

/-- `data.find(b"\0", start, stop)`. -/
def findNul (data : Bytes) (start stop : ℕ) : Option ℕ :=
  ((slice data start stop).idxOf? 0).map (start + ·)

/-- `bytes.rstrip(b"\0")`. -/
def rstripNul (bytes : Bytes) : Bytes := (bytes.reverse.dropWhile (· = 0)).reverse

/-- `_cstring`. -/
def cstring (data : Bytes) (offset : ℕ) : Except Exc PyStr := do
  need data offset 1 "string"
  match findNul data offset (min data.length (offset + maxName)) with
  | none => throw (.executable "unterminated executable string")
  | some stop => return PyStr.decodeUtf8 (slice data offset stop)

/-! ## PE -/

section Pe

/-- `rva_offset`. -/
def rvaOffset (data : Bytes) (sections : List PeSection) (rva : ℕ) : Except Exc ℕ :=
  match sections.find? fun row =>
      decide (row.rva ≤ rva ∧ rva < row.rva + max row.virtualSize row.rawSize) with
  | none => .error (.executable s!"PE RVA 0x{hexDigits 1 rva} is not mapped by a section")
  | some row => do
      let value := row.rawOffset + rva - row.rva
      need data value 1 "PE RVA"
      return value

/-- An entry of the data directory. -/
def peDirectory (data : Bytes) (start index : ℕ) : Except Exc PeDirectory := do
  need data (start + index * 8) 8 "PE data directory"
  unpackFrom data (start + index * 8) 8
    { index := index
      name := directoryNames.getD index ""
      rva := le32 data (start + index * 8)
      size := le32 data (start + index * 8 + 4) }

/-- A section header. -/
def peSection (data : Bytes) (sectionOffset index : ℕ) : Except Exc PeSection := do
  let row := sectionOffset + index * 40
  need data row 40 "PE section header"
  let name := PyStr.decodeAscii ((slice data row (row + 8)).takeWhile (· ≠ 0))
  let fields ← unpackFrom data (row + 8) 16
    (le32 data (row + 8), le32 data (row + 12), le32 data (row + 16), le32 data (row + 20))
  let flags ← unpackFrom data (row + 36) 4 (le32 data (row + 36))
  let (virtualSize, rva, rawSize, rawOffset) := fields
  if rawSize ≠ 0 ∧ (rawOffset > data.length ∨ rawSize > data.length - rawOffset) then
    throw (.executable s!"PE section {index} raw range lies outside file")
  return {
    index := index
    name := name
    rva := rva
    virtualSize := virtualSize
    rawOffset := rawOffset
    rawSize := rawSize
    characteristics := flags }

/-- A pass over the thunks of a library. -/
def peThunk (data : Bytes) (sections : List PeSection) (is64 : Bool)
    (state : ℕ × List PeSymbol) : Except Exc (Next (ℕ × List PeSymbol) (List PeSymbol)) := do
  let (cursor, symbols) := state
  let width := if is64 then 8 else 4
  need data cursor width "PE import thunk"
  let value := leNat (slice data cursor (cursor + width))
  if value = 0 then return .done symbols
  else if value.testBit (width * 8 - 1) then
    return .again (cursor + width, symbols ++ [.ordinal (value % 2 ^ 16)])
  else do
    let nameAt ← rvaOffset data sections value
    need data nameAt 2 "PE import hint"
    let name ← cstring data (nameAt + 2)
    return .again (cursor + width, symbols ++ [.name name])

/-- A pass over the import descriptors. -/
def peDescriptor (data : Bytes) (sections : List PeSection) (is64 : Bool)
    (state : ℕ × List PeImport) : Except Exc (Next (ℕ × List PeImport) (List PeImport)) := do
  let (cursor, imports) := state
  need data cursor 20 "PE import descriptor"
  let fields ← unpackFrom data cursor 20
    (le32 data cursor, le32 data (cursor + 12), le32 data (cursor + 16))
  let (original, nameRva, thunk) := fields
  if original = 0 ∧ nameRva = 0 ∧ thunk = 0 then return .done imports
  else do
    let library ← cstring data (← rvaOffset data sections nameRva)
    let thunkCursor ← rvaOffset data sections (if original = 0 then thunk else original)
    let symbols ← forever (.executable "PE import symbol count exceeds limit")
      (peThunk data sections is64) maxImports (thunkCursor, [])
    return .again (cursor + 20, imports ++ [{ library := library, symbols := symbols }])

/-- The import libraries. -/
def peImports (data : Bytes) (sections : List PeSection) (is64 : Bool)
    (directories : List PeDirectory) : Except Exc (List PeImport) :=
  let rva := (directories[1]?.map (·.rva)).getD 0
  if rva = 0 then .ok []
  else do
    let cursor ← rvaOffset data sections rva
    forever (.executable "PE import descriptor count exceeds limit")
      (peDescriptor data sections is64) maxImports (cursor, [])

/-- An exported name. -/
def peExport (data : Bytes) (sections : List PeSection) (ordinalBase namesAt ordinalsAt index : ℕ) :
    Except Exc PeExport := do
  need data (namesAt + index * 4) 4 "PE export name pointer"
  need data (ordinalsAt + index * 2) 2 "PE export ordinal"
  let nameRva ← unpackFrom data (namesAt + index * 4) 4 (le32 data (namesAt + index * 4))
  let ordinal ← unpackFrom data (ordinalsAt + index * 2) 2 (le16 data (ordinalsAt + index * 2))
  let name ← cstring data (← rvaOffset data sections nameRva)
  return { name := name, ordinal := ordinalBase + ordinal }

/-- The exported names. -/
def peExports (data : Bytes) (sections : List PeSection) (directories : List PeDirectory) :
    Except Exc (List PeExport) :=
  let rva := (directories[0]?.map (·.rva)).getD 0
  if rva = 0 then .ok []
  else do
    let exp ← rvaOffset data sections rva
    need data exp 40 "PE export directory"
    let fields ← unpackFrom data (exp + 16) 24
      (le32 data (exp + 16), le32 data (exp + 20), le32 data (exp + 24), le32 data (exp + 32),
        le32 data (exp + 36))
    let (ordinalBase, functionCount, nameCount, namesRva, ordinalsRva) := fields
    if functionCount > maxSymbols ∨ nameCount > maxSymbols then
      throw (.executable "PE export count exceeds limit")
    let namesAt ← rvaOffset data sections namesRva
    let ordinalsAt ← rvaOffset data sections ordinalsRva
    (List.range nameCount).mapM (peExport data sections ordinalBase namesAt ordinalsAt)

/-- The overlay behind the sections and the certificates. -/
def peOverlay (data : Bytes) (sectionOffset sectionCount : ℕ) (sections : List PeSection)
    (directories : List PeDirectory) : PeOverlay :=
  let maxRaw :=
    ((sections.map fun row => row.rawOffset + row.rawSize).max?).getD
      (sectionOffset + sectionCount * 40)
  let securityEnd :=
    (directories[4]?.map fun row => if row.rva = 0 then 0 else row.rva + row.size).getD 0
  let start := max maxRaw securityEnd
  { present := decide (data.length - start > 0), offset := start, size := data.length - start }

/-- `_parse_pe`. -/
def parsePe (data : Bytes) (offset : ℕ) : Except Exc ParsedExecutable := do
  need data offset 24 "PE COFF header"
  let fields ← unpackFrom data (offset + 4) 20
    (le16 data (offset + 4), le16 data (offset + 6), le32 data (offset + 8),
      le16 data (offset + 20), le16 data (offset + 22))
  let (machine, sectionCount, timestamp, optionalSize, characteristics) := fields
  if sectionCount > maxSections then throw (.executable "PE section count exceeds limit")
  let optional := offset + 24
  need data optional optionalSize "PE optional header"
  let magic ← unpackFrom data optional 2 (le16 data optional)
  if magic ≠ 0x10B ∧ magic ≠ 0x20B then
    throw (.executable s!"unsupported PE optional-header magic 0x{hexDigits 4 magic}")
  let is64 := magic == 0x20B
  if optionalSize < (if is64 then 112 else 96) then
    throw (.executable "truncated PE optional header")
  let entry ← unpackFrom data (optional + 16) 4 (le32 data (optional + 16))
  let imageBase ←
    if is64 then unpackFrom data (optional + 24) 8 (le64 data (optional + 24))
    else unpackFrom data (optional + 28) 4 (le32 data (optional + 28))
  let (subsystem, dllCharacteristics) ← unpackFrom data (optional + 68) 4
    (le16 data (optional + 68), le16 data (optional + 70))
  let countAt := optional + if is64 then 108 else 92
  let directoryCount ← unpackFrom data countAt 4 (min (le32 data countAt) 16)
  let directories ←
    (List.range directoryCount).mapM (peDirectory data (optional + if is64 then 112 else 96))
  let sectionOffset := optional + optionalSize
  let sections ← (List.range sectionCount).mapM (peSection data sectionOffset)
  let imports ← peImports data sections is64 directories
  let exports ← peExports data sections directories
  return {
    format := if is64 then "PE32+" else "PE32"
    architecture := named peMachines machine s!"COFF_MACHINE_0x{upper (hexDigits 4 machine)}"
    observations := .pe
      { dosHeaderPresent := true
        peSignature := "PE\\0\\0"
        machine := machine
        timestampRaw := timestamp
        characteristics := characteristics
        sectionCount := sectionCount }
      { entryPointRva := entry
        imageBase := imageBase
        subsystem := subsystem
        dllCharacteristics := dllCharacteristics }
      sections directories imports exports
      (peOverlay data sectionOffset sectionCount sections directories)
    assessments := []
    errors := [] }

end Pe

/-! ## MZ -/

/-- The header behind the MZ header, with the format and the architecture it stands for. -/
def mzExtension (data : Bytes) (start : ℕ) : Except Exc (String × String × Option Extension) :=
  let signature := slice data start (start + 2)
  if signature = ascii "NE" then do
    need data start 64 "NE header"
    let major ← byteAt data (start + 2)
    let minor ← byteAt data (start + 3)
    let entryIp ← unpackFrom data (start + 20) 2 (le16 data (start + 20))
    let entryCs ← unpackFrom data (start + 22) 2 (le16 data (start + 22))
    let segments ← unpackFrom data (start + 28) 2 (le16 data (start + 28))
    let modules ← unpackFrom data (start + 30) 2 (le16 data (start + 30))
    let targetOs ← byteAt data (start + 54)
    let flags ← unpackFrom data (start + 12) 2 (le16 data (start + 12))
    return ("NE", "X86_16",
      some (.ne start major minor entryIp entryCs segments modules targetOs flags))
  else if signature = ascii "LE" ∨ signature = ascii "LX" then do
    let kind := if signature = ascii "LE" then "LE" else "LX"
    need data start 176 s!"{kind} header"
    let machine ← unpackFrom data (start + 8) 2 (le16 data (start + 8))
    let byteOrder ← byteAt data (start + 2)
    let wordOrder ← byteAt data (start + 3)
    let targetOs ← unpackFrom data (start + 10) 2 (le16 data (start + 10))
    let moduleFlags ← unpackFrom data (start + 16) 4 (le32 data (start + 16))
    let objects ← unpackFrom data (start + 68) 4 (le32 data (start + 68))
    let entryObject ← unpackFrom data (start + 24) 4 (le32 data (start + 24))
    let entryOffset ← unpackFrom data (start + 28) 4 (le32 data (start + 28))
    return (kind, named leMachines machine "UNKNOWN",
      some (.le start byteOrder wordOrder targetOs moduleFlags objects entryObject entryOffset))
  else return ("DOS_MZ", "X86_16", none)

/-- `_parse_mz`. -/
def parseMz (data : Bytes) : Except Exc ParsedExecutable := do
  need data 0 64 "DOS MZ header"
  let (lastBytes, pages, relocations, headerParagraphs) ← unpackFrom data 2 8
    (le16 data 2, le16 data 4, le16 data 6, le16 data 8)
  let (initialSs, initialSp, initialIp, initialCs) ← unpackFrom data 14 8
    (le16 data 14, le16 data 16, le16 data 18, le16 data 20)
  let relocOffset ← unpackFrom data 24 2 (le16 data 24)
  let newOffset ← unpackFrom data 60 4 (le32 data 60)
  if relocations > maxHeaders ∨ relocOffset + relocations * 4 > data.length then
    throw (.executable "MZ relocation table lies outside file or exceeds limit")
  let header : MzHeader :=
    { dosHeaderPresent := true
      pages := pages
      lastPageBytes := lastBytes
      headerParagraphs := headerParagraphs
      relocationCount := relocations
      relocationTableOffset := relocOffset
      initialCs := initialCs
      initialIp := initialIp
      initialSs := initialSs
      initialSp := initialSp
      newHeaderOffset := newOffset }
  if newOffset = 0 then
    return {
      format := "DOS_MZ"
      architecture := "X86_16"
      observations := .mz header none
      assessments := []
      errors := [] }
  else do
    need data newOffset 2 "new executable header"
    if slice data newOffset (newOffset + 4) = ascii "PE" ++ [0, 0] then parsePe data newOffset
    else do
      let (kind, architecture, extension) ← mzExtension data newOffset
      return {
        format := kind
        architecture := architecture
        observations := .mz header extension
        assessments := []
        errors := [] }

/-! ## ELF -/

section Elf

/-- The fields of the header that the tables are found by. -/
structure ElfTables where
  objectType : ℕ
  machine : ℕ
  version : ℕ
  entry : ℕ
  phoff : ℕ
  shoff : ℕ
  flags : ℕ
  ehsize : ℕ
  phentsize : ℕ
  phnum : ℕ
  shentsize : ℕ
  shnum : ℕ
  shstrndx : ℕ
  deriving DecidableEq

/-- A row of the section-header table. -/
structure RawSection where
  name : ℕ
  stype : ℕ
  flags : ℕ
  offset : ℕ
  size : ℕ
  link : ℕ
  entsize : ℕ
  deriving DecidableEq

/-- What the identification says about the words of the file. -/
structure ElfFormat where
  is64 : Bool
  endian : Endian
  deriving DecidableEq

variable (fmt : ElfFormat) (data : Bytes)

def ElfFormat.headerSize : ℕ := if fmt.is64 then 64 else 52

/-- The size of a program header and of a section header. -/
def ElfFormat.expected : ℕ × ℕ := if fmt.is64 then (56, 64) else (32, 40)

/-- The size of an address, an offset or a size. -/
def ElfFormat.wide : ℕ := if fmt.is64 then 8 else 4

def ElfFormat.word (offset width : ℕ) : ℕ := fmt.endian.word data offset width

/-- `"HHIQQQIHHHHHH"` or `"HHIIIIIHHHHHH"` at 16. -/
def elfTables : ElfTables :=
  let w := fmt.wide
  { objectType := fmt.word data 16 2
    machine := fmt.word data 18 2
    version := fmt.word data 20 4
    entry := fmt.word data 24 w
    phoff := fmt.word data (24 + w) w
    shoff := fmt.word data (24 + 2 * w) w
    flags := fmt.word data (24 + 3 * w) 4
    ehsize := fmt.word data (28 + 3 * w) 2
    phentsize := fmt.word data (30 + 3 * w) 2
    phnum := fmt.word data (32 + 3 * w) 2
    shentsize := fmt.word data (34 + 3 * w) 2
    shnum := fmt.word data (36 + 3 * w) 2
    shstrndx := fmt.word data (38 + 3 * w) 2 }

/-- `"IIQQQQQQ"` or `"IIIIIIII"` at a row.  The flags stand in another place in each. -/
def elfProgramFields (index row : ℕ) : ElfProgram :=
  if fmt.is64 then
    { index := index
      type := fmt.word data row 4
      flags := fmt.word data (row + 4) 4
      offset := fmt.word data (row + 8) 8
      virtualAddress := fmt.word data (row + 16) 8
      fileSize := fmt.word data (row + 32) 8
      memorySize := fmt.word data (row + 40) 8
      alignment := fmt.word data (row + 48) 8 }
  else
    { index := index
      type := fmt.word data row 4
      flags := fmt.word data (row + 24) 4
      offset := fmt.word data (row + 4) 4
      virtualAddress := fmt.word data (row + 8) 4
      fileSize := fmt.word data (row + 16) 4
      memorySize := fmt.word data (row + 20) 4
      alignment := fmt.word data (row + 28) 4 }

/-- `"IIQQQQIIQQ"` or `"IIIIIIIIII"` at a row. -/
def elfSectionFields (row : ℕ) : RawSection :=
  if fmt.is64 then
    { name := fmt.word data row 4
      stype := fmt.word data (row + 4) 4
      flags := fmt.word data (row + 8) 8
      offset := fmt.word data (row + 24) 8
      size := fmt.word data (row + 32) 8
      link := fmt.word data (row + 40) 4
      entsize := fmt.word data (row + 56) 8 }
  else
    { name := fmt.word data row 4
      stype := fmt.word data (row + 4) 4
      flags := fmt.word data (row + 8) 4
      offset := fmt.word data (row + 16) 4
      size := fmt.word data (row + 20) 4
      link := fmt.word data (row + 24) 4
      entsize := fmt.word data (row + 36) 4 }

/-- A program header. -/
def elfProgram (tables : ElfTables) (index : ℕ) : Except Exc ElfProgram := do
  let row := tables.phoff + index * tables.phentsize
  let program ← unpackFrom data row fmt.expected.1 (elfProgramFields fmt data index row)
  if program.fileSize ≠ 0 then need data program.offset program.fileSize "ELF segment"
  return program

/-- A section header. -/
def elfSection (tables : ElfTables) (index : ℕ) : Except Exc RawSection := do
  let row := tables.shoff + index * tables.shentsize
  let raw ← unpackFrom data row fmt.expected.2 (elfSectionFields fmt data row)
  if raw.stype ≠ 8 ∧ raw.size ≠ 0 then need data raw.offset raw.size "ELF section"
  return raw

/-- The interpreter that the last program header of type 3 names. -/
def elfInterpreter (programs : List ElfProgram) : Option PyStr :=
  ((programs.filter fun row => row.type == 3 && row.fileSize != 0).getLast?).map fun row =>
    PyStr.decodeUtf8 (rstripNul (slice data row.offset (row.offset + row.fileSize)))

/-- The bytes of a section. -/
def RawSection.content (raw : RawSection) : Bytes := slice data raw.offset (raw.offset + raw.size)

/-- The section name string table. -/
def elfStrings (tables : ElfTables) (rows : List RawSection) : Bytes :=
  match rows[tables.shstrndx]? with
  | some raw => if raw.stype = 3 then raw.content data else []
  | none => []

/-- The text of a string table that starts at an offset. -/
def tableText (strings : Bytes) (value : ℕ) : PyStr :=
  let stop := (findNul strings value strings.length).getD strings.length
  (PyStr.decodeUtf8 (slice strings value stop)).take maxName

/-- `section_name`. -/
def sectionName (strings : Bytes) (value : ℕ) : PyStr :=
  if value ≥ strings.length then PyStr.ofString s!"<name:{value}>" else tableText strings value

/-- The build id of a note. -/
def elfNote (note : Bytes) (state : ElfDynamic) : Except Exc ElfDynamic := do
  let (namesz, descsz, ntype) ← unpackFrom note 0 12
    (fmt.word note 0 4, fmt.word note 4 4, fmt.word note 8 4)
  let descAt := 12 + (namesz + 3) / 4 * 4
  if ntype = 3 ∧ descAt + descsz ≤ note.length then
    return { state with buildId := some (hex (slice note descAt (descAt + descsz))) }
  else return state

/-- The size of a dynamic entry. -/
def ElfFormat.dynamicSize : ℕ := if fmt.is64 then 16 else 8

/-- The tag, which is only compared with small numbers, and the value of a dynamic entry. -/
def elfEntryFields (row : ℕ) : ℕ × ℕ :=
  (fmt.word data row fmt.wide, fmt.word data (row + fmt.wide) fmt.wide)

/-- A dynamic entry. -/
def elfEntry (raw : RawSection) (dynstr : Bytes) (state : ElfDynamic) (index : ℕ) :
    Except Exc ElfDynamic := do
  let row := raw.offset + index * raw.entsize
  let (tag, value) ← unpackFrom data row fmt.dynamicSize (elfEntryFields fmt data row)
  if tag ∉ [1, 14, 15, 29] then return state
  else if value ≥ dynstr.length then
    throw (.executable "ELF dynamic string offset lies outside table")
  else
    let text := tableText dynstr value
    if tag = 1 then return { state with needed := state.needed ++ [text] }
    else if tag = 14 then return { state with soname := some text }
    else if tag = 15 then return { state with rpath := some text }
    else return { state with runpath := some text }

/-- The string table of a dynamic section, if the section is read at all. -/
def dynamicStrings (rows : List RawSection) (raw : RawSection) : Option RawSection :=
  if raw.stype ≠ 6 ∨ raw.entsize = 0 then none
  else rows[raw.link]?.filter fun table => table.stype == 3

/-- The entries of a dynamic section. -/
def elfEntries (rows : List RawSection) (raw : RawSection) (state : ElfDynamic) :
    Except Exc ElfDynamic :=
  match dynamicStrings rows raw with
  | none => .ok state
  | some table =>
      let count := raw.size / raw.entsize
      if count > maxSymbols then .error (.executable "ELF dynamic entry count exceeds limit")
      else (List.range count).foldlM (elfEntry fmt data raw (table.content data)) state

/-- A pass over the sections. -/
def elfLook (strings : Bytes) (rows : List RawSection) (state : ElfDynamic) (raw : RawSection) :
    Except Exc ElfDynamic := do
  let state :=
    if raw.stype ∈ [2, 11] ∧ raw.entsize ≠ 0 then
      { state with symbolCount := state.symbolCount + raw.size / raw.entsize }
    else state
  let state ←
    if raw.stype = 7 ∧ sectionName strings raw.name = PyStr.ofString ".note.gnu.build-id" ∧
        raw.size ≥ 16 then
      elfNote fmt (raw.content data) state
    else .ok state
  elfEntries fmt data rows raw state

/-- The sections as they are reported. -/
def elfSections (strings : Bytes) (rows : List RawSection) : List ElfSection :=
  rows.zipIdx.map fun (raw, index) =>
    { index := index
      name := sectionName strings raw.name
      type := raw.stype
      flags := raw.flags
      offset := raw.offset
      size := raw.size }

/-- `_parse_elf` from the header on. -/
def parseElfTables : Except Exc ParsedExecutable := do
  need data 0 fmt.headerSize "ELF header"
  let tables ← unpackFrom data 16 (fmt.headerSize - 16) (elfTables fmt data)
  if tables.phnum > maxHeaders ∨ tables.shnum > maxSections then
    throw (.executable "ELF header count exceeds limit")
  if tables.phnum ≠ 0 ∧ tables.phentsize < fmt.expected.1 ∨
      tables.shnum ≠ 0 ∧ tables.shentsize < fmt.expected.2 then
    throw (.executable "invalid ELF entry size")
  need data tables.phoff (tables.phentsize * tables.phnum) "ELF program-header table"
  need data tables.shoff (tables.shentsize * tables.shnum) "ELF section-header table"
  let programs ← (List.range tables.phnum).mapM (elfProgram fmt data tables)
  let rows ← (List.range tables.shnum).mapM (elfSection fmt data tables)
  let strings := elfStrings data tables rows
  let sections := elfSections strings rows
  let dynamic ← rows.foldlM (elfLook fmt data strings rows)
    { needed := [], soname := none, rpath := none, runpath := none, symbolCount := 0,
      buildId := none }
  if dynamic.symbolCount > maxSymbols then throw (.executable "ELF symbol count exceeds limit")
  let osAbi ← byteAt data 7
  return {
    format := if fmt.is64 then "ELF64" else "ELF32"
    architecture := named elfMachines tables.machine s!"ELF_MACHINE_{tables.machine}"
    observations := .elf
      { elfClass := u8 data 4
        endianness := if fmt.endian = .little then "little" else "big"
        osAbi := osAbi
        objectType := tables.objectType
        machine := tables.machine
        version := tables.version
        entryPoint := tables.entry
        flags := tables.flags
        headerSize := tables.ehsize }
      programs sections (elfInterpreter data programs) dynamic
    assessments :=
      if tables.objectType ∈ [2, 3] ∧
          PyStr.ofString ".symtab" ∉ sections.map (fun row => row.name) then
        [{ assessmentType := "LIKELY_STRIPPED"
           analyzerId := "executable"
           statement := "ELF executable/shared object has no static symbol table"
           confidence := .medium
           evidenceRefs := ["elf.sections"] }]
      else []
    errors := [] }

end Elf

/-- `_parse_elf`. -/
def parseElf (data : Bytes) : Except Exc ParsedExecutable := do
  need data 0 16 "ELF identification"
  let elfClass ← byteAt data 4
  let encoding ← byteAt data 5
  if elfClass ∉ [1, 2] ∨ encoding ∉ [1, 2] then
    throw (.executable "invalid ELF class or byte order")
  parseElfTables ⟨elfClass == 2, if encoding = 1 then .little else .big⟩ data

/-! ## HUNK -/

section Hunk

variable (data : Bytes)

/-- A pass over the resident library names. -/
def hunkResident (state : ℕ × List PyStr) :
    Except Exc (Next (ℕ × List PyStr) (ℕ × List PyStr)) := do
  let (cursor, resident) := state
  need data cursor 4 "HUNK resident-name length"
  let longs := be32 data cursor
  if longs = 0 then return .done (cursor + 4, resident)
  else if longs > maxName / 4 then throw (.executable "HUNK resident name exceeds limit")
  else do
    need data (cursor + 4) (longs * 4) "HUNK resident name"
    let name := Partitions.latin1 (rstripNul (slice data (cursor + 4) (cursor + 4 + longs * 4)))
    return .again (cursor + 4 + longs * 4, resident ++ [name])

/-- A pass over the relocation groups. -/
def hunkGroup (name : String) (state : ℕ × List Relocations) :
    Except Exc (Next (ℕ × List Relocations) (ℕ × List Relocations)) := do
  let (cursor, groups) := state
  need data cursor 4 s!"{name} count"
  let count := be32 data cursor
  if count = 0 then return .done (cursor + 4, groups)
  else if count > maxSymbols then throw (.executable "HUNK relocation count exceeds limit")
  else do
    need data (cursor + 4) (4 + count * 4) s!"{name} offsets"
    let target := be32 data (cursor + 4)
    let offsets ← unpackFrom data (cursor + 8) (count * 4)
      ((List.range count).map fun i => be32 data (cursor + 8 + i * 4))
    return .again (cursor + 8 + count * 4, groups ++ [{ targetHunk := target, offsets := offsets }])

/-- A pass over the symbols. -/
def hunkSymbol (state : ℕ × List HunkSymbol) :
    Except Exc (Next (ℕ × List HunkSymbol) (ℕ × List HunkSymbol)) := do
  let (cursor, symbols) := state
  need data cursor 4 "HUNK symbol name length"
  let longs := be32 data cursor
  if longs = 0 then return .done (cursor + 4, symbols)
  else if symbols.length ≥ maxSymbols ∨ longs > maxName / 4 then
    throw (.executable "HUNK symbol limit exceeded")
  else do
    need data (cursor + 4) (longs * 4 + 4) "HUNK symbol"
    let name := Partitions.latin1 (rstripNul (slice data (cursor + 4) (cursor + 4 + longs * 4)))
    let value := be32 data (cursor + 4 + longs * 4)
    return .again (cursor + 8 + longs * 4, symbols ++ [{ name := name, value := value }])

/-- The body of a record and where it ends. -/
def hunkBody (name : String) (hunkType cursor : ℕ) : Except Exc (HunkBody × ℕ) :=
  if hunkType ∈ [0x3E9, 0x3EA, 0x3EB, 0x3F1] then do
    need data cursor 4 s!"{name} size"
    let longs := be32 data cursor
    if hunkType ≠ 0x3EB then do
      need data (cursor + 4) (longs * 4) name
      return (.block longs (longs * 4), cursor + 4 + longs * 4)
    else return (.block longs (longs * 4), cursor + 4)
  else if hunkType ∈ [0x3EC, 0x3ED, 0x3EE, 0x3F7, 0x3F8, 0x3F9, 0x3FC, 0x3FD] then do
    let (stop, groups) ← forever .unending (hunkGroup data name) (data.length + 1) (cursor, [])
    return (.relocations groups, stop)
  else if hunkType = 0x3F0 then do
    let (stop, symbols) ← forever .unending (hunkSymbol data) (data.length + 1) (cursor, [])
    return (.symbols symbols, stop)
  else if hunkType = 0x3F2 then return (.ended, cursor)
  else return (.unsupported, cursor)

/-- Where the record loop is. -/
structure HunkState where
  cursor : ℕ
  records : List HunkRecord
  currentHunk : ℕ
  ended : ℕ

/-- A pass over the records.  The loop ends with the type of an unsupported record, if it meets
one. -/
def hunkPass (tableSize : ℕ) (state : HunkState) :
    Except Exc (Next HunkState (HunkState × Option ℕ)) :=
  if state.cursor ≥ data.length then .ok (.done (state, none))
  else do
    need data state.cursor 4 "HUNK record"
    let rawType := be32 data state.cursor
    let hunkType := rawType % 2 ^ 30
    let name := named hunkTypes hunkType s!"HUNK_UNKNOWN_{hunkType}"
    let (body, cursor) ← hunkBody data name hunkType (state.cursor + 4)
    let ends := if body = .ended then 1 else 0
    let record : HunkRecord :=
      { typeId := hunkType
        type := name
        memoryFlags := rawType / 2 ^ 30
        hunkIndex := state.currentHunk
        body := body }
    let state : HunkState :=
      { cursor := cursor
        records := state.records ++ [record]
        currentHunk := state.currentHunk + ends
        ended := state.ended + ends }
    if body = .unsupported then return .done (state, some hunkType)
    else if state.ended = tableSize then return .done (state, none)
    else if state.records.length > maxHeaders then
      throw (.executable "HUNK record count exceeds limit")
    else return .again state

/-- `_parse_hunk`. -/
def parseHunk : Except Exc ParsedExecutable := do
  let (cursor, resident) ← forever .unending (hunkResident data) (data.length + 1) (4, [])
  need data cursor 12 "HUNK header table"
  let (tableSize, first, last) ← unpackFrom data cursor 12
    (be32 data cursor, be32 data (cursor + 4), be32 data (cursor + 8))
  if tableSize = 0 ∨ tableSize > maxSections ∨ last < first ∨ last - first + 1 ≠ tableSize then
    throw (.executable "invalid HUNK table range/count")
  need data (cursor + 12) (tableSize * 4) "HUNK size table"
  let declared := (List.range tableSize).map fun i =>
    let raw := be32 data (cursor + 12 + i * 4)
    { sizeLongs := raw % 2 ^ 30, memoryFlags := raw / 2 ^ 30 : DeclaredHunk }
  let (state, unsupported) ← forever .unending (hunkPass data tableSize) (data.length + 1)
    { cursor := cursor + 12 + tableSize * 4, records := [], currentHunk := first, ended := 0 }
  let header : HunkHeader :=
    { residentNames := resident
      hunkCount := tableSize
      firstHunk := first
      lastHunk := last
      declaredHunks := declared }
  match unsupported with
  | some hunkType =>
      let statement := s!"unsupported HUNK record type {hunkType}"
      return {
        format := "AMIGA_HUNK"
        architecture := "M68K"
        observations := .hunk header state.records
        assessments :=
          [{ assessmentType := "EXECUTABLE_STRUCTURE_ANOMALY"
             analyzerId := "executable"
             statement := statement
             confidence := .high
             evidenceRefs := ["hunk.records"] }]
        errors := [statement] }
  | none =>
      if state.ended ≠ tableSize then
        throw (.executable "HUNK file lacks required HUNK_END records")
      return {
        format := "AMIGA_HUNK"
        architecture := "M68K"
        observations := .hunk header state.records
        assessments := []
        errors := [] }

end Hunk

/-! ## Mach-O -/

section Macho

variable (data : Bytes)

/-- A row of the architecture table. -/
def fatArchitecture (endian : Endian) (index : ℕ) : Except Exc FatArchitecture := do
  let row := 8 + index * 20
  let slot ← unpackFrom data row 20
    { index := index
      cpuType := endian.word data row 4
      cpuSubtype := endian.word data (row + 4) 4
      offset := endian.word data (row + 8) 4
      size := endian.word data (row + 12) 4
      alignmentPower := endian.word data (row + 16) 4 : FatArchitecture }
  need data slot.offset slot.size "Mach-O FAT slice"
  return slot

/-- A load command. -/
def loadCommand (endian : Endian) (state : ℕ × List LoadCommand) (index : ℕ) :
    Except Exc (ℕ × List LoadCommand) := do
  let (cursor, loads) := state
  need data cursor 8 "Mach-O load command"
  let (command, size) ← unpackFrom data cursor 8
    (endian.word data cursor 4, endian.word data (cursor + 4) 4)
  if size < 8 then throw (.executable "invalid Mach-O load-command size")
  need data cursor size "Mach-O load command"
  let load : LoadCommand := { index := index, command := command, size := size, offset := cursor }
  return (cursor + size, loads ++ [load])

/-- `_parse_macho` for a FAT file. -/
def parseMachoFat (endian : Endian) : Except Exc ParsedExecutable := do
  need data 0 8 "Mach-O FAT header"
  let count ← unpackFrom data 4 4 (endian.word data 4 4)
  if count > 64 then throw (.executable "Mach-O FAT architecture count exceeds limit")
  need data 8 (count * 20) "Mach-O FAT architecture table"
  let architectures ← (List.range count).mapM (fatArchitecture data endian)
  return {
    format := "MACHO_FAT"
    architecture := none
    observations := .machoFat architectures
    assessments := []
    errors := [] }

/-- `_parse_macho` for a file of one architecture. -/
def parseMachoThin (raw : ℕ) (endian : Endian) (is64 : Bool) : Except Exc ParsedExecutable := do
  let headerSize := if is64 then 32 else 28
  need data 0 headerSize "Mach-O header"
  let (cpu, subtype, fileType, commands, commandBytes, flags) ← unpackFrom data 4 24
    (endian.word data 4 4, endian.word data 8 4, endian.word data 12 4, endian.word data 16 4,
      endian.word data 20 4, endian.word data 24 4)
  if commands > maxHeaders ∨ commandBytes > data.length - headerSize then
    throw (.executable "Mach-O load-command bounds exceeded")
  let (_, loads) ← (List.range commands).foldlM (loadCommand data endian) (headerSize, [])
  return {
    format := if is64 then "MACHO64" else "MACHO32"
    architecture := named machoMachines cpu s!"MACH_CPU_{cpu}"
    observations := .macho
      { magic := s!"0x{upper (hexDigits 8 raw)}"
        endianness := if endian = .little then "little" else "big"
        cpuType := cpu
        cpuSubtype := subtype
        fileType := fileType
        loadCommandCount := commands
        loadCommandBytes := commandBytes
        flags := flags }
      loads
    assessments := []
    errors := [] }

/-- `_parse_macho`. -/
def parseMacho : Except Exc ParsedExecutable :=
  let raw := be32 data 0
  if raw = 0xCAFEBABE then parseMachoFat data .big
  else if raw = 0xBEBAFECA then parseMachoFat data .little
  else
    let endian := if raw ∈ [0xCEFAEDFE, 0xCFFAEDFE] then Endian.little else .big
    parseMachoThin data raw endian (decide (raw ∈ [0xFEEDFACF, 0xCFFAEDFE]))

end Macho

/-! ## The reader -/

def elfMagic : Bytes := [0x7F, 0x45, 0x4C, 0x46]

def machoMagics : List ℕ :=
  [0xFEEDFACE, 0xFEEDFACF, 0xCEFAEDFE, 0xCFFAEDFE, 0xCAFEBABE, 0xBEBAFECA]

/-- `parse_executable`. -/
def parseExecutable (data : Bytes) : Except Exc (Option ParsedExecutable) :=
  if slice data 0 4 = elfMagic then some <$> parseElf data
  else if data.length ≥ 4 ∧ be32 data 0 = 0x3F3 then some <$> parseHunk data
  else if data.length ≥ 4 ∧ be32 data 0 ∈ machoMagics then some <$> parseMacho data
  else if slice data 0 2 = ascii "MZ" then some <$> parseMz data
  else .ok none

end Executable

end AVBox
