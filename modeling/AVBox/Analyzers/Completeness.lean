import AVBox.Analyzers.Document
import AVBox.Analyzers.Runs
import AVBox.Lib.Fallible

/-!
# What COMPLETE means

A document parser filters its payloads by size without a word, and an object at the depth limit is
never given to the document parsers.  `Payload` names what the parsers locate; a run that ends
COMPLETE has left nothing out exactly when no located payload is too large and no object at the
limit is a document with payloads.
-/

namespace AVBox

open Program Binary

namespace Document

variable (env : ExtractEnv) (lib : DocumentLib) (limits : DocumentLimits)

/-! ## Payloads -/

/-- A payload that a parser has located. -/
inductive Payload
  | pdf (number : ℕ) (body stream : Bytes)
  | cfb (entry : Cfb.CfbEntry)
  | part (part : Part)
  deriving DecidableEq

/-- The payloads of a package. -/
def packagePayloads (parts : List Part) : List Payload :=
  match packageKind parts with
  | .ooxml => (ooxmlEmbedded parts).map .part
  | .odf => (odfEmbedded parts).map .part
  | .other => []

/-- The payload of an indirect object. -/
def Payload.ofPdf (item : ℕ × Bytes × Bytes) : Payload := .pdf item.1 item.2.1 item.2.2

/-- The payloads of a document. -/
def located (content : Bytes) : Except Exc (List Payload) :=
  match formatOf content with
  | .pdf => do
      let bodies ← pdfBodies limits content
      return (pdfEmbedded bodies).map .ofPdf
  | .cfb => do
      let entries ← Cfb.parse limits lib.frames content
      return (cfbPackages entries).map .cfb
  | .rtf => .ok []
  | .archive => do
      let parts ← packageParts env content
      return packagePayloads parts

/-- What becomes of a payload. -/
def Payload.child (content : Bytes) : Payload → Except Exc (Option DocumentChild)
  | .pdf number body stream => pdfChild lib limits number body stream
  | .cfb entry => .ok (cfbChild limits entry)
  | .part member => partChild env limits content member

/-- The payload exceeds a size limit of the parsers. -/
def Payload.Oversized : Payload → Prop
  | .pdf _ body stream =>
      if contains (ascii "/FlateDecode") body then
        ∃ payload tail, lib.inflate stream (limits.maxSingleChildBytes + 1) = .ok (payload, tail) ∧
          (tail ≠ [] ∨ limits.maxSingleChildBytes < payload.length)
      else limits.maxSingleChildBytes < stream.length
  | .cfb entry => limits.maxDocumentParserBytes < entry.size ∨
      limits.maxSingleChildBytes < entry.data.length
  | .part member => limits.maxSingleChildBytes < member.1.fileSize

variable {env lib limits} {content : Bytes}

lemma parsePdf_children {document : ParsedDocument}
    (h : parsePdf lib limits content = .ok document) :
    ∃ bodies children, pdfBodies limits content = .ok bodies ∧
      ((pdfEmbedded bodies).map Payload.ofPdf).mapM (Payload.child env lib limits content) =
        .ok children ∧
      document.children = children.reduceOption := by
  unfold parsePdf at h
  split at h
  · cases h
  obtain ⟨bodies, hbodies, hrest⟩ := Fallible.bind_eq_ok.1 h
  obtain ⟨children, hchildren, hdocument⟩ := Fallible.bind_eq_ok.1 hrest
  obtain rfl := Except.ok.inj hdocument
  refine ⟨bodies, children, hbodies, ?_, rfl⟩
  rw [Fallible.mapM_eq_ok_iff] at hchildren ⊢
  exact List.forall₂_map_left_iff.2 hchildren

lemma parseCfb_children {document : ParsedDocument}
    (h : parseCfb lib limits content = .ok document) :
    ∃ entries children, Cfb.parse limits lib.frames content = .ok entries ∧
      ((cfbPackages entries).map Payload.cfb).mapM (Payload.child env lib limits content) =
        .ok children ∧
      document.children = children.reduceOption := by
  obtain ⟨entries, hentries, hdocument⟩ := Fallible.bind_eq_ok.1 h
  obtain rfl := Except.ok.inj hdocument
  refine ⟨entries, (cfbPackages entries).map (cfbChild limits), hentries, ?_, rfl⟩
  rw [Fallible.mapM_eq_ok_iff, List.forall₂_map_left_iff, List.forall₂_map_right_iff]
  exact List.forall₂_same.2 fun _ _ => rfl

lemma parts_children {parts : List Part} {children : List (Option DocumentChild)}
    (h : parts.mapM (partChild env limits content) = .ok children) :
    (parts.map Payload.part).mapM (Payload.child env lib limits content) = .ok children := by
  rw [Fallible.mapM_eq_ok_iff] at h ⊢
  exact List.forall₂_map_left_iff.2 h

lemma parsePackage_children {document : ParsedDocument}
    (h : parsePackage env lib limits content = .ok (some document)) :
    ∃ parts children, packageParts env content = .ok parts ∧
      (packagePayloads parts).mapM (Payload.child env lib limits content) = .ok children ∧
      document.children = children.reduceOption := by
  obtain ⟨parts, hparts, hrest⟩ := Fallible.bind_eq_ok.1 h
  split at hrest
  · cases hrest
  split at hrest
  · cases hrest
  cases hkind : packageKind parts with
  | ooxml =>
      have hpayloads : packagePayloads parts = (ooxmlEmbedded parts).map .part := by
        rw [packagePayloads, hkind]
      rw [hkind] at hrest
      obtain ⟨parsed, hparse, hdocument⟩ := Fallible.bind_eq_ok.1 hrest
      obtain rfl := Option.some.inj (Except.ok.inj hdocument)
      obtain ⟨_, -, hrest⟩ := Fallible.bind_eq_ok.1 hparse
      obtain ⟨_, -, hrest⟩ := Fallible.bind_eq_ok.1 hrest
      obtain ⟨children, hchildren, hdocument⟩ := Fallible.bind_eq_ok.1 hrest
      obtain rfl := Except.ok.inj hdocument
      exact ⟨parts, children, hparts, hpayloads ▸ parts_children hchildren, rfl⟩
  | odf =>
      have hpayloads : packagePayloads parts = (odfEmbedded parts).map .part := by
        rw [packagePayloads, hkind]
      rw [hkind] at hrest
      obtain ⟨parsed, hparse, hdocument⟩ := Fallible.bind_eq_ok.1 hrest
      obtain rfl := Option.some.inj (Except.ok.inj hdocument)
      obtain ⟨_, -, hrest⟩ := Fallible.bind_eq_ok.1 hparse
      obtain ⟨manifest, -, hrest⟩ := Fallible.bind_eq_ok.1 hrest
      obtain ⟨children, hchildren, hrest⟩ := Fallible.bind_eq_ok.1 hrest
      obtain ⟨_, -, hrest⟩ := Fallible.bind_eq_ok.1 hrest
      obtain ⟨_, -, hdocument⟩ := Fallible.bind_eq_ok.1 hrest
      obtain rfl := Except.ok.inj hdocument
      exact ⟨parts, children, hparts, hpayloads ▸ parts_children hchildren, rfl⟩
  | other =>
      rw [hkind] at hrest
      cases Except.ok.inj hrest

/-- The children of a document are what becomes of its payloads. -/
theorem parse_children {document : ParsedDocument}
    (h : parse env lib limits content = .ok (some document)) :
    ∃ payloads children, located env lib limits content = .ok payloads ∧
      payloads.mapM (Payload.child env lib limits content) = .ok children ∧
      document.children = children.reduceOption := by
  unfold parse at h
  unfold located
  cases hformat : formatOf content with
  | pdf =>
      simp only [hformat] at h ⊢
      obtain ⟨parsed, hparse, hdocument⟩ := Fallible.bind_eq_ok.1 h
      obtain rfl := Option.some.inj (Except.ok.inj hdocument)
      obtain ⟨bodies, children, hbodies, hchildren, heq⟩ := parsePdf_children hparse
      exact ⟨_, children, Fallible.bind_eq_ok.2 ⟨bodies, hbodies, rfl⟩, hchildren, heq⟩
  | cfb =>
      simp only [hformat] at h ⊢
      obtain ⟨parsed, hparse, hdocument⟩ := Fallible.bind_eq_ok.1 h
      obtain rfl := Option.some.inj (Except.ok.inj hdocument)
      obtain ⟨entries, children, hentries, hchildren, heq⟩ := parseCfb_children hparse
      exact ⟨_, children, Fallible.bind_eq_ok.2 ⟨entries, hentries, rfl⟩, hchildren, heq⟩
  | rtf =>
      simp only [hformat] at h ⊢
      obtain ⟨parsed, hparse, hdocument⟩ := Fallible.bind_eq_ok.1 h
      obtain rfl := Option.some.inj (Except.ok.inj hdocument)
      unfold parseRtf at hparse
      split at hparse
      · cases hparse
      obtain ⟨_, -, hdocument⟩ := Fallible.bind_eq_ok.1 hparse
      obtain rfl := Except.ok.inj hdocument
      exact ⟨[], [], rfl, rfl, rfl⟩
  | archive =>
      simp only [hformat] at h ⊢
      obtain ⟨zip, -, hrest⟩ := Fallible.bind_eq_ok.1 h
      split at hrest
      · obtain ⟨parts, children, hparts, hchildren, heq⟩ := parsePackage_children hrest
        exact ⟨_, children, Fallible.bind_eq_ok.2 ⟨parts, hparts, rfl⟩, hchildren, heq⟩
      · split at hrest
        · cases hrest
        · cases Except.ok.inj hrest

/-! ## Payloads that are too large -/

/-- The content of a stream that is too large stays empty. -/
lemma data_of_parse {entries : List Cfb.CfbEntry} {frames : ℕ}
    (h : Cfb.parse limits frames content = .ok entries) {entry : Cfb.CfbEntry}
    (hentry : entry ∈ entries) (hsize : limits.maxDocumentParserBytes < entry.size) :
    entry.data = [] := by
  obtain ⟨header, -, h⟩ := Fallible.bind_eq_ok.1 h
  obtain ⟨fat, -, h⟩ := Fallible.bind_eq_ok.1 h
  obtain ⟨dirChain, -, h⟩ := Fallible.bind_eq_ok.1 h
  obtain ⟨directory, -, h⟩ := Fallible.bind_eq_ok.1 h
  obtain ⟨bare, -, h⟩ := Fallible.bind_eq_ok.1 h
  obtain ⟨pathed, -, h⟩ := Fallible.bind_eq_ok.1 h
  obtain ⟨minifat, -, h⟩ := Fallible.bind_eq_ok.1 h
  obtain ⟨ministream, -, h⟩ := Fallible.bind_eq_ok.1 h
  obtain ⟨before, -, hread⟩ := Fallible.exists_of_mem_mapM h hentry
  obtain ⟨data, hdata, hentry⟩ := Fallible.bind_eq_ok.1 hread
  obtain rfl := Except.ok.inj hentry
  simp only at hsize ⊢
  unfold Cfb.readStream at hdata
  by_cases hempty : before.kind ≠ 2 ∨ before.size = 0
  · rw [if_pos hempty] at hdata
    exact (Except.ok.inj hdata).symm
  · rw [if_neg hempty, if_pos hsize] at hdata
    exact (Except.ok.inj hdata).symm

/-- The entries that are located come from the directory. -/
lemma cfb_of_located {payloads : List Payload}
    (h : located env lib limits content = .ok payloads) {entry : Cfb.CfbEntry}
    (hmem : Payload.cfb entry ∈ payloads) :
    ∃ entries, Cfb.parse limits lib.frames content = .ok entries ∧ entry ∈ entries := by
  unfold located at h
  split at h
  · obtain ⟨bodies, -, h⟩ := Fallible.bind_eq_ok.1 h
    obtain rfl := Except.ok.inj h
    simp [Payload.ofPdf] at hmem
  · obtain ⟨entries, hentries, h⟩ := Fallible.bind_eq_ok.1 h
    obtain rfl := Except.ok.inj h
    obtain ⟨found, hfound, heq⟩ := List.mem_map.1 hmem
    obtain rfl := Payload.cfb.inj heq
    exact ⟨entries, hentries, List.mem_of_mem_filter hfound⟩
  · obtain rfl := Except.ok.inj h
    simp at hmem
  · obtain ⟨parts, -, h⟩ := Fallible.bind_eq_ok.1 h
    obtain rfl := Except.ok.inj h
    unfold packagePayloads at hmem
    split at hmem <;> simp at hmem

/-- A payload that is too large never becomes a child. -/
lemma child_of_oversized {payloads : List Payload}
    (hlocated : located env lib limits content = .ok payloads) {payload : Payload}
    (hmem : payload ∈ payloads) (hsize : payload.Oversized lib limits) :
    payload.child env lib limits content = .ok none := by
  cases payload with
  | pdf number body stream =>
      simp only [Payload.Oversized] at hsize
      simp only [Payload.child, pdfChild, pdfPayload]
      split at hsize
      · obtain ⟨data, tail, hinflate, htail⟩ := hsize
        rw [if_pos ‹_›, hinflate]
        by_cases hrest : tail = []
        · have hlarge : ¬data.length ≤ limits.maxSingleChildBytes := by
            rcases htail with htail | htail
            · exact absurd hrest htail
            · omega
          simp only [hrest, ne_eq, not_true, if_false]
          exact if_neg hlarge
        · simp only [hrest, ne_eq, not_false_iff, if_true]
          rfl
      · rw [if_neg ‹_›]
        exact if_neg (Nat.not_le.2 hsize)
  | cfb entry =>
      have hnone : cfbChild limits entry = none := by
        refine if_neg fun hkeep => ?_
        rcases hsize with hsize | hsize
        · obtain ⟨entries, hentries, hentry⟩ := cfb_of_located hlocated hmem
          exact hkeep.1 (data_of_parse hentries hentry hsize)
        · exact absurd hkeep.2 (Nat.not_le.2 hsize)
      rw [Payload.child, hnone]
  | part member => exact if_neg (Nat.not_le.2 hsize)

variable (env lib limits)

/-- A payload that was located and is no child, although nothing but its size speaks against it. -/
def DroppedForSize (content : Bytes) : Prop :=
  ∃ document payloads, parse env lib limits content = .ok (some document) ∧
    located env lib limits content = .ok payloads ∧
    ∃ payload ∈ payloads, payload.Oversized lib limits ∧
      ¬∃ child ∈ document.children, payload.child env lib limits content = .ok (some child)

/-- Some payload of the document is larger than the parsers allow. -/
def TooLarge (content : Bytes) : Prop :=
  ∃ document payloads, parse env lib limits content = .ok (some document) ∧
    located env lib limits content = .ok payloads ∧
    ∃ payload ∈ payloads, payload.Oversized lib limits

/-- The size filters of the parsers are silent: what is too large is dropped. -/
lemma droppedForSize_iff (content : Bytes) :
    DroppedForSize env lib limits content ↔ TooLarge env lib limits content := by
  constructor
  · rintro ⟨document, payloads, hparse, hlocated, payload, hmem, hsize, -⟩
    exact ⟨document, payloads, hparse, hlocated, payload, hmem, hsize⟩
  · rintro ⟨document, payloads, hparse, hlocated, payload, hmem, hsize⟩
    refine ⟨document, payloads, hparse, hlocated, payload, hmem, hsize, ?_⟩
    rintro ⟨child, -, hchild⟩
    rw [child_of_oversized hlocated hmem hsize] at hchild
    cases Except.ok.inj hchild

end Document

namespace ContainerAnalyzer

open Document

variable {ω : Type}

section Statement

variable (env : ExtractEnv) (lib : DocumentLib) (limits : DocumentLimits) (t : ExtractState ω)

/-- The object has no children according to `parse_document`. -/
def Childless (content : Bytes) : Prop :=
  ∀ document, parse env lib limits content = .ok (some document) → document.children = []

/-- `_kind` does not recognise the object. -/
def Unrecognised (content : Bytes) : Prop :=
  ∀ kind, kindOf (withDocuments env lib limits) content ≠ .ok (some kind)

/-- Nothing was left out because of a limit. -/
structure NothingLeftOut : Prop where
  events : t.usage.limitEvents = []
  atLimit : ∀ object ∈ t.trace.objects, env.budget.maxRecursionDepth ≤ object.1 →
    Childless env lib limits object.2 ∧ Unrecognised env lib limits object.2
  payloads : ∀ object ∈ t.trace.objects, object.1 < env.budget.maxRecursionDepth →
    object.2.length ≤ limits.maxDocumentParserBytes → ¬DroppedForSize env lib limits object.2

/-- The objects of the graph stay clear of the limits that nothing reports. -/
structure ClearOfLimits (source : Bytes) : Prop where
  root : env.budget.maxRecursionDepth = 0 → Unrecognised env lib limits source
  atLimit : ∀ object ∈ t.trace.objects, env.budget.maxRecursionDepth ≤ object.1 →
    Childless env lib limits object.2
  payloads : ∀ object ∈ t.trace.objects, object.1 < env.budget.maxRecursionDepth →
    object.2.length ≤ limits.maxDocumentParserBytes → ¬TooLarge env lib limits object.2

end Statement

variable {env : ExtractEnv} {lib : DocumentLib} {limits : DocumentLimits} {scans : Scans ω}
  {source : Bytes} {s t : ExtractState ω}

/-- A body that returns with a COMPLETE job has no events. -/
lemma processBody_events (h : processBody env scans source s = .ok () t)
    (hcomplete : t.job.completeness = "COMPLETE") : t.usage.limitEvents = [] := by
  simp only [processBody, get_bind_apply] at h
  obtain ⟨⟨⟩, u, -, hconclude⟩ := bind_eq_ok.1 h
  simp only [conclude, get_bind_apply] at hconclude
  split at hconclude
  · obtain ⟨-, rfl⟩ := EStateM.Result.ok.inj hconclude
    simp [Write.apply, Write.change, Partial.text] at hcomplete
  · next hnot =>
      obtain ⟨-, rfl⟩ := EStateM.Result.ok.inj hconclude
      by_contra hevents
      exact hnot ⟨hevents, hcomplete⟩

/-- A run that returns with a COMPLETE job: no exception was caught at the top, there are no
events, and every extracted object at the limit is unrecognised. -/
lemma process_complete (hreturns : Returns (process env scans source) s)
    (hcomplete : (final (process env scans source) s).job.completeness = "COMPLETE") :
    ∃ found, (final (process env scans source) s).trace.objects = (0, source) :: found ∧
      (final (process env scans source) s).usage.limitEvents = [] ∧
      ∀ object ∈ found, env.budget.maxRecursionDepth ≤ object.1 →
        kindOf env object.2 = .ok none := by
  have hruns := @processBody_runs _ env scans source (begin source s)
  cases hbody : processBody env scans source (begin source s) with
  | ok a u =>
      rw [hbody] at hruns
      rw [final_of_ok (process_of_ok hbody)] at hcomplete ⊢
      have hevents := processBody_events hbody hcomplete
      obtain ⟨found, hfound, hnoted⟩ := hruns.objects
      refine ⟨found, by simpa [begin, removed] using hfound, hevents, fun object hmem hdepth => ?_⟩
      rcases hnoted object hmem hdepth with hkind | hevent
      · exact hkind
      · rw [hevents] at hevent
        cases hevent
  | error exc u =>
      have hprocess := process_of_error hbody
      split at hprocess
      · rw [final_of_ok hprocess] at hcomplete
        simp [removed, excepted, Write.apply, Write.change, Partial.text] at hcomplete
      · exact absurd hreturns (not_returns_iff.2 ⟨exc, _, hprocess⟩)

/-- A run that ends COMPLETE has left nothing out exactly when the graph stays clear of the limits
that nothing reports: the depth limit for documents, the depth limit for the root, and the size
filters of the document parsers. -/
theorem nothing_left_out_iff
    (hreturns : Returns (process (withDocuments env lib limits) scans source) s)
    (hcomplete : (final (process (withDocuments env lib limits) scans source) s).job.completeness =
      "COMPLETE") :
    NothingLeftOut env lib limits (final (process (withDocuments env lib limits) scans source) s) ↔
      ClearOfLimits env lib limits (final (process (withDocuments env lib limits) scans source) s)
        source := by
  obtain ⟨found, hobjects, hevents, hfound⟩ := process_complete hreturns hcomplete
  constructor
  · rintro ⟨-, hlimit, hpayloads⟩
    refine ⟨fun hzero => ?_, fun object hmem hdepth => (hlimit object hmem hdepth).1,
      fun object hmem hdepth hsize => ?_⟩
    · exact (hlimit (0, source) (by rw [hobjects]; exact List.mem_cons_self)
        (Nat.le_of_eq hzero)).2
    · rw [← droppedForSize_iff]
      exact hpayloads object hmem hdepth hsize
  · rintro ⟨hroot, hlimit, hpayloads⟩
    refine ⟨hevents, fun object hmem hdepth => ⟨hlimit object hmem hdepth, ?_⟩,
      fun object hmem hdepth hsize => ?_⟩
    · rw [hobjects] at hmem
      rcases List.mem_cons.1 hmem with rfl | hmem
      · exact hroot (Nat.le_zero.1 hdepth)
      · intro kind hkind
        rw [hfound object hmem hdepth] at hkind
        cases Except.ok.inj hkind
    · rw [droppedForSize_iff]
      exact hpayloads object hmem hdepth hsize

/-! ### A compressed file under a depth limit of zero -/

/-- Nothing, compressed by bzip2. -/
def emptyBzip2 : Bytes :=
  [0x42, 0x5A, 0x68, 0x39, 0x17, 0x72, 0x45, 0x38, 0x50, 0x90, 0, 0, 0, 0]

/-- Libraries for files that hold no documents. -/
def plainLib : DocumentLib where
  inflate := fun _ _ => .error ⟨.zlibError, "error", "incorrect header check"⟩
  parseXml := fun _ => .error ⟨.other, "ParseError", "no element found"⟩
  frames := 900

/-- Decoders under a depth limit. -/
def depthEnv (maxRecursionDepth : ℕ) : ExtractEnv :=
  { ExtractEnv.plain with
    budget := { ExtractionBudget.default with maxRecursionDepth := maxRecursionDepth } }

/-- A run on a file under a depth limit. -/
def depthRun (maxRecursionDepth : ℕ) (source : Bytes) : ExtractState Unit :=
  final (process (withDocuments (depthEnv maxRecursionDepth) plainLib .default) .silent source)
    (.fresh (containerJob source) ())

/-- An OOXML document with the letter A as its payload. -/
def letterDocx : Bytes :=
  [80, 75, 3, 4, 20, 0, 0, 0, 0, 0, 0, 0, 33, 0, 199, 28, 23, 60, 8, 0, 0, 0, 8, 0, 0, 0, 19, 0, 0,
   0, 91, 67, 111, 110, 116, 101, 110, 116, 95, 84, 121, 112, 101, 115, 93, 46, 120, 109, 108, 60,
   84, 121, 112, 101, 115, 47, 62, 80, 75, 3, 4, 20, 0, 0, 0, 0, 0, 0, 0, 33, 0, 139, 158, 217,
   211, 1, 0, 0, 0, 1, 0, 0, 0, 21, 0, 0, 0, 119, 111, 114, 100, 47, 101, 109, 98, 101, 100, 100,
   105, 110, 103, 115, 47, 97, 46, 98, 105, 110, 65, 80, 75, 1, 2, 20, 3, 20, 0, 0, 0, 0, 0, 0, 0,
   33, 0, 199, 28, 23, 60, 8, 0, 0, 0, 8, 0, 0, 0, 19, 0, 0, 0, 0, 0, 0, 0, 0, 0, 0, 0, 128, 1, 0,
   0, 0, 0, 91, 67, 111, 110, 116, 101, 110, 116, 95, 84, 121, 112, 101, 115, 93, 46, 120, 109,
   108, 80, 75, 1, 2, 20, 3, 20, 0, 0, 0, 0, 0, 0, 0, 33, 0, 139, 158, 217, 211, 1, 0, 0, 0, 1, 0,
   0, 0, 21, 0, 0, 0, 0, 0, 0, 0, 0, 0, 0, 0, 128, 1, 57, 0, 0, 0, 119, 111, 114, 100, 47, 101,
   109, 98, 101, 100, 100, 105, 110, 103, 115, 47, 97, 46, 98, 105, 110, 80, 75, 5, 6, 0, 0, 0, 0,
   2, 0, 2, 0, 132, 0, 0, 0, 109, 0, 0, 0, 0, 0]

/-- A ZIP archive with the document as its member. -/
def docxZip : Bytes :=
  [80, 75, 3, 4, 20, 0, 0, 0, 0, 0, 0, 0, 33, 0, 4, 43, 166, 23, 7, 1, 0, 0, 7, 1, 0, 0, 6, 0, 0,
   0, 100, 46, 100, 111, 99, 120] ++ letterDocx ++
  [80, 75, 1, 2, 20, 3, 20, 0, 0, 0, 0, 0, 0, 0, 33, 0, 4, 43, 166, 23, 7, 1, 0, 0, 7, 1, 0, 0, 6,
   0, 0, 0, 0, 0, 0, 0, 0, 0, 0, 0, 128, 1, 0, 0, 0, 0, 100, 46, 100, 111, 99, 120, 80, 75, 5, 6,
   0, 0, 0, 0, 1, 0, 1, 0, 52, 0, 0, 0, 43, 1, 0, 0, 0, 0]

/-- Decoders for them, under a depth limit that the payload of the document is at. -/
def docxEnv : ExtractEnv :=
  { depthEnv 2 with
    isZipfile := fun content => .ok (content = letterDocx ∨ content = docxZip)
    zipInfos := fun content =>
      if content = docxZip then .ok [⟨PyStr.ofString "d.docx", 0, 0x1800000, 263⟩]
      else .ok [⟨PyStr.ofString "[Content_Types].xml", 0, 0x1800000, 8⟩,
        ⟨PyStr.ofString "word/embeddings/a.bin", 0, 0x1800000, 1⟩]
    zipOpen := fun content index =>
      if content = docxZip then .ok (.ofBytes letterDocx)
      else .ok (.ofBytes (if index = 0 then ascii "<Types/>" else [0x41])) }

/-- Libraries for them. -/
def docxLib : DocumentLib := { plainLib with parseXml := fun _ => .ok (.node [] []) }

/-- The run on the archive. -/
def docxRun : ExtractState Unit :=
  final (process (withDocuments docxEnv docxLib .default) .silent docxZip)
    (.fresh (containerJob docxZip) ())

/-- What the parsers say of the three objects. -/
lemma docx_parses :
    (∀ document, parse docxEnv docxLib .default docxZip ≠ .ok (some document)) ∧
      (∀ document, parse docxEnv docxLib .default [0x41] ≠ .ok (some document)) ∧
      located docxEnv docxLib .default letterDocx =
        .ok [.part (⟨PyStr.ofString "word/embeddings/a.bin", 0, 0x1800000, 1⟩, 1)] := by
  have hzip : parse docxEnv docxLib .default docxZip = .ok none := by decide +kernel
  have hletter : parse docxEnv docxLib .default [0x41] = .ok none := by decide +kernel
  refine ⟨fun document h => ?_, fun document h => ?_, by decide +kernel⟩
  · cases Except.ok.inj (hzip.symm.trans h)
  · cases Except.ok.inj (hletter.symm.trans h)

/-- The document lies below the limit and its payload at it, and nothing is left out. -/
theorem docx_nothing_left_out :
    docxRun.trace.objects = [(0, docxZip), (1, letterDocx), (2, [0x41])] ∧
      NothingLeftOut docxEnv docxLib .default docxRun := by
  have hobjects : docxRun.trace.objects = [(0, docxZip), (1, letterDocx), (2, [0x41])] := by
    decide +kernel
  have hcases : ∀ object ∈ docxRun.trace.objects,
      object = (0, docxZip) ∨ object = (1, letterDocx) ∨ object = (2, [0x41]) := by
    intro object hmem
    rw [hobjects] at hmem
    simpa only [List.mem_cons, List.not_mem_nil, or_false] using hmem
  have hreturns : Returns (process (withDocuments docxEnv docxLib .default) .silent docxZip)
      (.fresh (containerJob docxZip) ()) := by decide +kernel
  have hcomplete : docxRun.job.completeness = "COMPLETE" := by decide +kernel
  obtain ⟨hzip, hletter, hdocx⟩ := docx_parses
  refine ⟨hobjects, ?_⟩
  unfold docxRun at hcases hcomplete ⊢
  refine (nothing_left_out_iff hreturns hcomplete).2 ⟨fun hzero => absurd hzero (by decide), ?_, ?_⟩
  · intro object hmem hdepth document hparse
    rcases hcases object hmem with rfl | rfl | rfl
    · exact absurd hdepth (by decide)
    · exact absurd hdepth (by decide)
    · exact absurd hparse (hletter document)
  · rintro object hmem - - ⟨document, payloads, hparse, hlocated, payload, hpayload, hsize⟩
    rcases hcases object hmem with rfl | rfl | rfl
    · exact hzip document hparse
    · obtain rfl := Except.ok.inj (hdocx.symm.trans hlocated)
      obtain rfl := List.mem_singleton.1 hpayload
      exact absurd (show 64 * 1024 * 1024 < 1 from hsize) (by decide)
    · exact hletter document hparse

/-- With a depth limit of zero the root is not looked at, and the job stays COMPLETE. -/
theorem depth_zero_leaves_container :
    (depthRun 0 emptyBzip2).job.completeness = "COMPLETE" ∧
      ¬NothingLeftOut (depthEnv 0) plainLib .default (depthRun 0 emptyBzip2) := by
  refine ⟨by decide +kernel, fun h => ?_⟩
  have hobject : (0, emptyBzip2) ∈ (depthRun 0 emptyBzip2).trace.objects := by decide +kernel
  exact (h.atLimit _ hobject (by decide)).2 .bzip2 (by decide +kernel)

end ContainerAnalyzer

end AVBox
