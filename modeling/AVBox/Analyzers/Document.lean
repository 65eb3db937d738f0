import AVBox.Analyzers.Cfb
import AVBox.Lib.Regex

/-!
# Documents

`parse_document` of `analyzers/document.py`: PDF, compound files, RTF and the two package formats.
Each parser decides three things that the extraction uses, the embedded payloads, whether the
document could be read completely, and which exception it raises; the observations and assessments
of a document are left out.

The inflater, the XML parser and the depth of the stack are in `DocumentLib`; ZIP archives are read
through the decoders of `ExtractEnv`.
-/

namespace AVBox

open Binary

namespace Document

/-! ## The environment -/

/-- An element of an XML document. -/
inductive Xml
  | node (attributes : List (PyStr × PyStr)) (children : List Xml)

/-- What the parsers call. -/
structure DocumentLib where
  /-- `zlib.decompressobj().decompress(data, max_length)`: the output and the unconsumed tail. -/
  inflate : Bytes → ℕ → Except Exc (Bytes × Bytes)
  /-- `ET.fromstring`. -/
  parseXml : Bytes → Except Exc Xml
  /-- The number of calls that can still be nested. -/
  frames : ℕ

variable (env : ExtractEnv) (lib : DocumentLib) (limits : DocumentLimits)

/-- `int(digits)`, which refuses more than 4300 digits. -/
def intOf (digits : Bytes) : Except Exc ℕ :=
  if digits.length > 4300 then
    .error (.value ("Exceeds the limit (4300 digits) for integer string conversion: value has " ++
      s!"{digits.length} digits; use sys.set_int_max_str_digits() to increase the limit"))
  else .ok (digits.foldl (fun value digit => value * 10 + (digit.toNat - 0x30)) 0)

/-- The payload of a document as a child. -/
def childNamed (name : String) (data : Bytes) : DocumentChild := ⟨PyStr.ofString name, data⟩

/-! ## PDF -/

section Pdf

open Regex

/-- `%PDF-(\d\.\d)` -/
def pdfHeader : Rx :=
  .seq (literal (ascii "%PDF-")) (.group 1 (.seq (.one isDigit) (.seq (literal (ascii "."))
    (.one isDigit))))

/-- `(\d+)\s+(\d+)\s+obj\b(.*?)\bendobj\b` -/
def pdfObject : Rx :=
  .seq (.group 1 (plus (.one isDigit))) <| .seq (plus (.one isSpace)) <|
  .seq (.group 2 (plus (.one isDigit))) <| .seq (plus (.one isSpace)) <|
  .seq (literal (ascii "obj")) <| .seq .boundary <|
  .seq (.group 3 (.many false (.one fun _ => true))) <| .seq .boundary <|
  .seq (literal (ascii "endobj")) .boundary

/-- `/Type\s*/EmbeddedFile\b` -/
def pdfEmbeddedFile : Rx :=
  .seq (literal (ascii "/Type")) <| .seq (.many true (.one isSpace)) <|
  .seq (literal (ascii "/EmbeddedFile")) .boundary

/-- `\r?\n` -/
def lineEnd : Rx := .seq (.maybe (.one (· == 0x0D))) (.one (· == 0x0A))

/-- `stream\r?\n(.*?)\r?\nendstream` -/
def pdfStream : Rx :=
  .seq (literal (ascii "stream")) <| .seq lineEnd <|
  .seq (.group 1 (.many false (.one fun _ => true))) <| .seq lineEnd (literal (ascii "endstream"))

/-- `bodies[number] = body`: a number that was there before keeps its place. -/
def setBody (bodies : List (ℕ × Bytes)) (number : ℕ) (body : Bytes) : List (ℕ × Bytes) :=
  if bodies.any fun item => item.1 = number then
    bodies.map fun item => if item.1 = number then (number, body) else item
  else bodies ++ [(number, body)]

/-- The bodies of the indirect objects, by number. -/
def pdfBodies (data : Bytes) : Except Exc (List (ℕ × Bytes)) :=
  let objects := allMatches pdfObject data
  if objects.length > limits.maxDocumentComponents then
    .error (.document "PDF object count limit exceeded")
  else
    objects.foldlM (fun bodies found => do
      return setBody bodies (← intOf (found.group 1)) (found.group 3)) []

/-- The stream of an object that is an embedded file. -/
def embeddedStream (body : Bytes) : Option Bytes :=
  if (search pdfEmbeddedFile body).isSome then (search pdfStream body).map (·.group 1) else none

/-- What a stream holds, unless it cannot be inflated within the limit. -/
def pdfPayload (body stream : Bytes) : Except Exc (Option Bytes) :=
  if contains (ascii "/FlateDecode") body then
    match lib.inflate stream (limits.maxSingleChildBytes + 1) with
    | .ok (payload, tail) => .ok (if tail ≠ [] then none else some payload)
    | .error exc => if exc.family = .zlibError then .ok none else .error exc
  else .ok (some stream)

/-- The child an embedded file makes. -/
def pdfChild (number : ℕ) (body stream : Bytes) : Except Exc (Option DocumentChild) := do
  match ← pdfPayload lib limits body stream with
  | some payload =>
      if payload.length ≤ limits.maxSingleChildBytes then
        return some (childNamed s!"pdf-embedded-{number}.bin" payload)
      else return none
  | none => return none

/-- The embedded files of a PDF document. -/
def pdfEmbedded (bodies : List (ℕ × Bytes)) : List (ℕ × Bytes × Bytes) :=
  bodies.filterMap fun item => (embeddedStream item.2).map fun stream => (item.1, item.2, stream)

/-- Whether a PDF document can be inspected completely. -/
def pdfPartial (data : Bytes) : Option Partial :=
  if contains (ascii "/Encrypt") data then some .unsupported
  else if !contains (ascii "%%EOF") (data.drop (data.length - 4096)) then some .error
  else none

/-- `_parse_pdf`. -/
def parsePdf (data : Bytes) : Except Exc ParsedDocument := do
  if (matchStart pdfHeader data).isNone then .error (.document "invalid PDF header")
  else
    let bodies ← pdfBodies limits data
    let children ← (pdfEmbedded bodies).mapM fun item =>
      pdfChild lib limits item.1 item.2.1 item.2.2
    return ⟨children.reduceOption, pdfPartial data⟩

end Pdf

/-! ## Compound files -/

/-- The streams that hold an embedded object. -/
def cfbPackages (entries : List Cfb.CfbEntry) : List Cfb.CfbEntry :=
  entries.filter fun entry => decide (entry.kind = 2 ∧
    entry.name ∈ ["Package", "CONTENTS", "Ole10Native"].map PyStr.ofString)

/-- The child an embedded object makes. -/
def cfbChild (entry : Cfb.CfbEntry) : Option DocumentChild :=
  if entry.data ≠ [] ∧ entry.data.length ≤ limits.maxSingleChildBytes then
    some ⟨PyStr.ofString "ole-" ++ entry.name ++ PyStr.ofString ".bin", entry.data⟩
  else none

/-- `_parse_cfb`. -/
def parseCfb (data : Bytes) : Except Exc ParsedDocument := do
  let entries ← Cfb.parse limits lib.frames data
  return ⟨((cfbPackages entries).map (cfbChild limits)).reduceOption, none⟩

/-! ## XML parts -/

/-- `data.upper()`. -/
def upperBytes (data : Bytes) : Bytes :=
  data.map fun byte => if 0x61 ≤ byte.toNat ∧ byte.toNat ≤ 0x7A then byte - 0x20 else byte

/-- The walk over the elements: the stack, topmost first, and how many elements may still come. -/
def walkXml : ℕ → List (Xml × ℕ) → Except Exc Unit
  | _, [] => .ok ()
  | remaining, (.node attributes children, depth) :: stack =>
      if depth > limits.maxDocumentXmlDepth then .error (.document "XML nesting limit exceeded")
      else match remaining with
        | 0 => .error (.document "XML element count limit exceeded")
        | remaining + 1 =>
            if attributes.length > limits.metadataMaxFields then
              .error (.document "XML attribute count limit exceeded")
            else walkXml remaining ((children.map fun child => (child, depth + 1)).reverse ++ stack)

/-- `_safe_xml`. -/
def safeXml (data : Bytes) : Except Exc Xml :=
  if data.length > limits.maxDocumentParserBytes then
    .error (.document "XML part size limit exceeded")
  else if contains (ascii "<!DOCTYPE") (upperBytes data) ∨
      contains (ascii "<!ENTITY") (upperBytes data) then
    .error (.document "XML DTD/entity declarations forbidden")
  else match lib.parseXml data with
    | .error exc =>
        .error (if exc.name = "ParseError" then
          .document s!"malformed XML part: {exc.text}" else exc)
    | .ok root => do
        walkXml limits limits.maxDocumentComponents [(root, 1)]
        return root

/-- The children of an element. -/
def Xml.children : Xml → List Xml
  | .node _ children => children

/-- The attributes of an element. -/
def Xml.attributes : Xml → List (PyStr × PyStr)
  | .node attributes _ => attributes

mutual

/-- `root.iter()`. -/
def Xml.iter : Xml → List Xml
  | .node attributes children => .node attributes children :: iterAll children

/-- `iter()` of each of several elements. -/
def iterAll : List Xml → List Xml
  | [] => []
  | element :: elements => element.iter ++ iterAll elements

end

/-! ## Packages -/

/-- `stream.read(size)`. -/
def readAtMost (size : ℕ) (stream : ByteStream) : Except Exc Bytes :=
  let data := stream.chunks.flatten
  if data.length ≥ size then .ok (data.take size)
  else stream.fault.elim (.ok data) .error

/-- A member of a package, with its place in the archive. -/
abbrev Part := ZipInfo × ℕ

/-- `_read_part`. -/
def readPart (content : Bytes) (part : Part) : Except Exc Bytes := do
  if part.1.flagBits &&& 1 ≠ 0 then .error (.document "encrypted ZIP package member")
  else if part.1.fileSize > limits.maxDocumentParserBytes then
    .error (.document "document package member size limit exceeded")
  else
    let data ← readAtMost (limits.maxDocumentParserBytes + 1) (← env.zipOpen content part.2)
    if data.length > limits.maxDocumentParserBytes then
      .error (.document "document package member expanded size limit exceeded")
    else return data

/-- `by_name.get(name)`: the last member of that name. -/
def partNamed (parts : List Part) (name : String) : Option Part :=
  parts.reverse.find? fun part => decide (part.1.filename = PyStr.ofString name)

/-- `filename.startswith(head)`. -/
def nameStarts (part : Part) (head : String) : Bool :=
  (PyStr.ofString head).isPrefixOf part.1.filename

/-- `filename.endswith(tail)`. -/
def nameEnds (part : Part) (tail : String) : Bool :=
  (PyStr.ofString tail).isSuffixOf part.1.filename

/-- The child that an embedded part makes. -/
def partChild (content : Bytes) (part : Part) : Except Exc (Option DocumentChild) :=
  if part.1.fileSize ≤ limits.maxSingleChildBytes then do
    return some ⟨part.1.filename, ← readPart env limits content part⟩
  else .ok none

/-- `_read_part(archive, by_name[name], limits)`. -/
def readNamed (content : Bytes) (parts : List Part) (name : String) : Except Exc Bytes :=
  match partNamed parts name with
  | some part => readPart env limits content part
  | none => .error ⟨.other, "KeyError", s!"'{name}'"⟩

/-- An XML part that is looked up by its name. -/
def xmlPart (content : Bytes) (parts : List Part) (name : String) : Except Exc Xml := do
  safeXml lib limits (← readNamed env limits content parts name)

/-- The relationship parts, which only count: `count` relationships came before. -/
def readRelationships (content : Bytes) : ℕ → List Part → Except Exc Unit
  | _, [] => .ok ()
  | count, part :: parts => do
      let root ← safeXml lib limits (← readPart env limits content part)
      let count := count + root.children.length
      if count > limits.metadataMaxFields then
        .error (.document "OOXML relationship count limit exceeded")
      else readRelationships content count parts

/-- The parts of an OOXML package that hold an embedded object. -/
def ooxmlEmbedded (parts : List Part) : List Part :=
  parts.filter fun part =>
    ["word/embeddings/", "xl/embeddings/", "ppt/embeddings/"].any (nameStarts part) ||
      nameEnds part "vbaProject.bin"

/-- `_parse_ooxml`. -/
def parseOoxml (content : Bytes) (parts : List Part) : Except Exc ParsedDocument := do
  let _ ← xmlPart env lib limits content parts "[Content_Types].xml"
  readRelationships env lib limits content 0 (parts.filter fun part => nameEnds part ".rels")
  let children ← (ooxmlEmbedded parts).mapM (partChild env limits content)
  return ⟨children.reduceOption, none⟩

/-- The parts of an ODF package that hold an embedded object. -/
def odfEmbedded (parts : List Part) : List Part :=
  parts.filter fun part =>
    ["Object ", "ObjectReplacements/", "Embedded/"].any (nameStarts part) && !nameEnds part "/"

/-- The manifest mentions encryption. -/
def odfEncrypted (manifest : Xml) : Bool :=
  manifest.iter.any fun element => element.attributes.any fun item =>
    ["encryption-data", "checksum"].any fun word =>
      item.1.tails.any fun rest => (PyStr.ofString word).isPrefixOf rest

/-- An XML part that need not be there. -/
def checkPart (content : Bytes) (parts : List Part) (name : String) : Except Exc Unit :=
  if (partNamed parts name).isNone then .ok ()
  else do
    let _ ← xmlPart env lib limits content parts name
    return ()

/-- `_parse_odf`. -/
def parseOdf (content : Bytes) (parts : List Part) : Except Exc ParsedDocument := do
  let _ ← readNamed env limits content parts "mimetype"
  let manifest ← xmlPart env lib limits content parts "META-INF/manifest.xml"
  let children ← (odfEmbedded parts).mapM (partChild env limits content)
  checkPart env lib limits content parts "content.xml"
  checkPart env lib limits content parts "styles.xml"
  return ⟨children.reduceOption, if odfEncrypted manifest then some .unsupported else none⟩

/-- What the names of a package say it is. -/
inductive PackageKind
  | ooxml
  | odf
  | other
  deriving DecidableEq, Repr

def packageKind (parts : List Part) : PackageKind :=
  if (partNamed parts "[Content_Types].xml").isSome then .ooxml
  else if (partNamed parts "mimetype").isSome ∧
      (partNamed parts "META-INF/manifest.xml").isSome then .odf
  else .other

/-- The members of a package. -/
def packageParts (content : Bytes) : Except Exc (List Part) := do
  return (← env.zipInfos content).zipIdx

/-- `_parse_package`. -/
def parsePackage (content : Bytes) : Except Exc (Option ParsedDocument) := do
  let parts ← packageParts env content
  if parts.length > limits.maxDocumentComponents then
    .error (.document "document package component limit exceeded")
  else if (parts.map (·.1.fileSize)).sum > limits.maxDocumentParserBytes then
    .error (.document "document package expanded-size limit exceeded")
  else match packageKind parts with
    | .ooxml => return some (← parseOoxml env lib limits content parts)
    | .odf => return some (← parseOdf env lib limits content parts)
    | .other => return none

/-! ## RTF -/

/-- `\s*\{\\rtf(\d+)` -/
def rtfSignature : Regex.Rx :=
  .seq (.many true (.one Regex.isSpace)) <| .seq (Regex.literal (ascii "\x7b\\rtf"))
    (.group 1 (Regex.plus (.one Regex.isDigit)))

/-- The scan over the groups: the largest depth, and the anomaly it ends with.  The counter of
binary data is never set, so nothing is skipped. -/
def rtfGroups : Bool → ℕ → ℕ → Bytes → ℕ × Option String
  | _, depth, maximum, [] =>
      (maximum, if depth ≠ 0 then some "RTF unbalanced groups" else none)
  | true, depth, maximum, _ :: data => rtfGroups false depth maximum data
  | false, depth, maximum, byte :: data =>
      if byte.toNat = 0x5C then rtfGroups true depth maximum data
      else if byte.toNat = 0x7B then
        let maximum := max maximum (depth + 1)
        if maximum > limits.maxRtfGroupDepth then (maximum, some "RTF nesting limit exceeded")
        else rtfGroups false (depth + 1) maximum data
      else if byte.toNat = 0x7D then
        match depth with
        | 0 => (maximum, some "RTF unmatched closing group")
        | depth + 1 => rtfGroups false depth maximum data
      else rtfGroups false depth maximum data

/-- Whether an RTF document could be read completely. -/
def rtfPartial : Option String → Option Partial
  | none => none
  | some anomaly => if anomaly = "RTF nesting limit exceeded" then some .limit else some .error

/-- `_parse_rtf`. -/
def parseRtf (data : Bytes) : Except Exc ParsedDocument := do
  match Regex.matchStart rtfSignature data with
  | none => .error (.document "invalid RTF signature")
  | some found =>
      let _ ← intOf (found.group 1)
      return ⟨[], rtfPartial (rtfGroups limits false 0 0 data).2⟩

/-! ## Dispatch -/

/-- The formats that `parse_document` tells apart by the first bytes. -/
inductive Format
  | pdf
  | cfb
  | rtf
  | archive
  deriving DecidableEq, Repr

def formatOf (content : Bytes) : Format :=
  let head := content.take 16
  if (ascii "%PDF-").isPrefixOf head then .pdf
  else if [0xD0, 0xCF, 0x11, 0xE0, 0xA1, 0xB1, 0x1A, 0xE1].isPrefixOf head then .cfb
  else if (ascii "\x7b\\rtf").isPrefixOf (head.dropWhile Regex.isSpace) then .rtf
  else .archive

/-- `parse_document`. -/
def parse (content : Bytes) : Except Exc (Option ParsedDocument) := do
  match formatOf content with
  | .pdf => return some (← parsePdf lib limits content)
  | .cfb => return some (← parseCfb lib limits content)
  | .rtf => return some (← parseRtf limits content)
  | .archive =>
      if ← env.isZipfile content then parsePackage env lib limits content
      else if [0x50, 0x4B].isPrefixOf content then
        .error (.document "truncated or malformed ZIP-based document")
      else return none

/-- The decoders with this parser as the one for documents, which has its limits from the same
settings. -/
def withDocuments : ExtractEnv :=
  { env with
    maxDocumentParserBytes := limits.maxDocumentParserBytes
    budget := { env.budget with maxSingleChildBytes := limits.maxSingleChildBytes }
    parseDocument := parse env lib limits }

end Document

end AVBox
