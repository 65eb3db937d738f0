import AVBox.Lib.Binary
import AVBox.Models.Correlation

/-!
# The correlation provider

`HTTPRabCorrelationProvider` of `correlation/providers.py`: one request to the server, and what is
left of its answer after the identity check and the bounds.

* The network, the credential file and the JSON parser are a `Server`: what each of them answers.
* `identity_kept_iff` says for which answers an exact match in the result can be believed.
* `result_bounded_iff` says for which answers the result is within the configured bounds.
-/

namespace AVBox

/-- The settings of the provider.  The bounds are those of the settings model. -/
structure RABCorrelationSettings where
  providerId : String
  providerVersion : String
  maximumResponseBytes : ℕ
  maxExactRecords : ℕ
  maxOccurrences : ℕ
  maxSimilarityCandidates : ℕ
  maxProvenanceRecords : ℕ
  maxMetadataStringLength : ℕ
  exact_pos : 1 ≤ maxExactRecords
  string_min : 32 ≤ maxMetadataStringLength

def RABCorrelationSettings.default : RABCorrelationSettings where
  providerId := "production-rab"
  providerVersion := "1"
  maximumResponseBytes := 1024 * 1024
  maxExactRecords := 20
  maxOccurrences := 100
  maxSimilarityCandidates := 20
  maxProvenanceRecords := 50
  maxMetadataStringLength := 4096
  exact_pos := by decide
  string_min := by decide

namespace HTTPRabCorrelationProvider

/-! ## The exchange -/

/-- What the client, the credential file and the parser may raise.  A timeout is one of
`httpx.HTTPError`. -/
inductive ClientError
  | timeout
  | http
  | os (text : String)
  | value (text : String)
  | other (exc : Exc)
  deriving DecidableEq, Repr

/-- A streamed response: the chunks of its body, then an error or the end. -/
structure Response where
  statusCode : ℕ
  chunks : List Bytes
  fault : Option ClientError
  deriving DecidableEq

/-- The body of the request. -/
structure Payload where
  hashes : Hashes
  size : ℕ
  fingerprint : Option String
  deriving DecidableEq

/-- The credential, the server behind the endpoint, and `json.loads` with `model_validate`. -/
structure Server where
  token : Except ClientError String
  post : String → Payload → Except ClientError Response
  parse : Bytes → Except ClientError CorrelationDocument

/-- The payload of `correlate`: an empty fingerprint is not sent. -/
def payload (artifact : InputArtifact) (ssdeep : Option String) : Payload :=
  ⟨artifact.hashes, artifact.byteSize, ssdeep.filter (· ≠ "")⟩

section Provider

variable (settings : RABCorrelationSettings)

/-- `_error`. -/
def error (code : CorrelationErrorCode) : CorrelationDocument :=
  let unavailable := decide (code = .rabUnavailable)
  let state : CorrelationState := if unavailable then .unavailable else .error
  { protocolVersion := PyStr.ofString "1"
    providerId := settings.providerId
    providerVersion := settings.providerVersion
    state := state
    exact := ⟨if unavailable then .rabUnavailable else .error, [], state⟩
    similarity := ⟨PyStr.ofString "ssdeep", state, []⟩
    knownOccurrences := []
    warnings := []
    errors := [code]
    skippedReason := none
    fromCache := false }

/-! ## The bounds -/

/-- `_clip`. -/
def clip (value : PyStr) : PyStr := value.take settings.maxMetadataStringLength

/-- The pass over a provenance record. -/
def clipProvenance (record : ProvenanceRecord) : ProvenanceRecord :=
  { record with
    sourceId := record.sourceId.map (clip settings)
    sourceLabel := record.sourceLabel.map (clip settings)
    collection := record.collection.map (clip settings)
    summary := record.summary.map (clip settings) }

/-- The pass over the context of a match. -/
def boundContext (context : RABObjectContext) : RABObjectContext :=
  { context with
    provenance :=
      (context.provenance.take settings.maxProvenanceRecords).map (clipProvenance settings)
    knownFilenames := context.knownFilenames.map (clip settings)
    sourceCollections := context.sourceCollections.map (clip settings)
    metadataUrls := context.metadataUrls.map (clip settings) }

/-- The match speaks of the object that was asked about. -/
def SameObject (artifact : InputArtifact) (record : ExactMatch) : Prop :=
  record.sha256 = artifact.hashes.sha256 ∧ record.size = artifact.byteSize

instance (artifact : InputArtifact) (record : ExactMatch) :
    Decidable (SameObject artifact record) :=
  inferInstanceAs (Decidable (_ ∧ _))

/-- The loop over the matches: `none` at one that speaks of another object. -/
def boundMatches (artifact : InputArtifact) : List ExactMatch → Option (List ExactMatch)
  | [] => some []
  | record :: rest =>
      if ¬SameObject artifact record then none
      else do
        let rest ← boundMatches artifact rest
        return { record with context := record.context.map (boundContext settings) } :: rest

/-- The pass over an occurrence. -/
def clipOccurrence (occurrence : KnownOccurrence) : KnownOccurrence :=
  { occurrence with
    logicalPath := occurrence.logicalPath.map (clip settings)
    parentLabel := occurrence.parentLabel.map (clip settings) }

/-- The pass over a candidate. -/
def clipCandidate (candidate : SimilarityCandidate) : SimilarityCandidate :=
  { candidate with
    queryFingerprint := clip settings candidate.queryFingerprint
    candidateFingerprint := clip settings candidate.candidateFingerprint }

/-- The records that are kept. -/
def keep (document : CorrelationDocument) : CorrelationDocument :=
  { document with
    providerId := settings.providerId
    providerVersion := settings.providerVersion
    exact.exactMatches := document.exact.exactMatches.take settings.maxExactRecords
    knownOccurrences := document.knownOccurrences.take settings.maxOccurrences
    similarity.candidates :=
      document.similarity.candidates.take settings.maxSimilarityCandidates }

/-- `_validate_and_bound`. -/
def validateAndBound (document : CorrelationDocument) (artifact : InputArtifact) :
    CorrelationDocument :=
  let kept := keep settings document
  match boundMatches settings artifact kept.exact.exactMatches with
  | none => error settings .rabIdentityConflict
  | some records =>
      { kept with
        exact.exactMatches := records
        knownOccurrences := kept.knownOccurrences.map (clipOccurrence settings)
        similarity.candidates := kept.similarity.candidates.map (clipCandidate settings) }

/-! ## The request -/

/-- The loop over the chunks of a body: `none` above the limit. -/
def readBody (fault : Option ClientError) : List Bytes → Bytes → Except ClientError (Option Bytes)
  | [], body => fault.elim (.ok (some body)) .error
  | chunk :: chunks, body =>
      let body := body ++ chunk
      if body.length > settings.maximumResponseBytes then .ok none else readBody fault chunks body

/-- The `try` block of `correlate`. -/
def exchange (server : Server) (artifact : InputArtifact) (ssdeep : Option String) :
    Except ClientError CorrelationDocument := do
  let token ← server.token
  let response ← server.post token (payload artifact ssdeep)
  if response.statusCode = 401 ∨ response.statusCode = 403 then
    return error settings .rabAuthFailed
  else if response.statusCode ≥ 400 then return error settings .rabProtocolError
  else
    match ← readBody settings response.fault response.chunks [] with
    | none => return error settings .rabResponseTooLarge
    | some body =>
        let document ← server.parse body
        return validateAndBound settings document artifact

/-- `correlate`. -/
def correlate (server : Server) (artifact : InputArtifact) (ssdeep : Option String) :
    Except Exc CorrelationDocument :=
  match exchange settings server artifact ssdeep with
  | .ok document => .ok document
  | .error .timeout => .ok (error settings .rabTimeout)
  | .error .http => .ok (error settings .rabUnavailable)
  | .error (.os _) => .ok (error settings .rabUnavailable)
  | .error (.value _) => .ok (error settings .rabProtocolError)
  | .error (.other exc) => .error exc

/-- The server answers with a document that the models accept. -/
def Answers (server : Server) (artifact : InputArtifact) (ssdeep : Option String)
    (document : CorrelationDocument) : Prop :=
  ∃ token response body, server.token = .ok token ∧
    server.post token (payload artifact ssdeep) = .ok response ∧ response.statusCode < 400 ∧
    readBody settings response.fault response.chunks [] = .ok (some body) ∧
    server.parse body = .ok document

variable {settings} {server : Server} {artifact : InputArtifact} {ssdeep : Option String}
  {document : CorrelationDocument}

lemma correlate_of_answers (h : Answers settings server artifact ssdeep document) :
    correlate settings server artifact ssdeep =
      .ok (validateAndBound settings document artifact) := by
  obtain ⟨token, response, body, htoken, hpost, hstatus, hbody, hparse⟩ := h
  have hexchange : exchange settings server artifact ssdeep =
      .ok (validateAndBound settings document artifact) := by
    unfold exchange
    rw [htoken]
    show (server.post token (payload artifact ssdeep) >>= _) = _
    rw [hpost]
    show (if _ then _ else _) = _
    rw [if_neg (by omega), if_neg (by omega), hbody]
    show (server.parse body >>= _) = _
    rw [hparse]
    rfl
  simp only [correlate, hexchange]

lemma exists_correlate_iff (h : Answers settings server artifact ssdeep document)
    {P : CorrelationDocument → Prop} :
    (∃ answer, correlate settings server artifact ssdeep = .ok answer ∧ P answer) ↔
      P (validateAndBound settings document artifact) := by
  rw [correlate_of_answers h]
  simp

/-! ## The identity check -/

/-- The match with its context cut to the bounds. -/
def boundMatch (settings : RABCorrelationSettings) (record : ExactMatch) : ExactMatch :=
  { record with context := record.context.map (boundContext settings) }

lemma boundMatches_of_same {records : List ExactMatch}
    (h : ∀ record ∈ records, SameObject artifact record) :
    boundMatches settings artifact records = some (records.map (boundMatch settings)) := by
  induction records with
  | nil => rfl
  | cons record rest ih =>
      rw [boundMatches, if_neg (not_not.2 (h record List.mem_cons_self)),
        ih fun other hother => h other (List.mem_cons_of_mem _ hother)]
      rfl

lemma boundMatches_of_other {records : List ExactMatch}
    (h : ∃ record ∈ records, ¬SameObject artifact record) :
    boundMatches settings artifact records = none := by
  induction records with
  | nil => simp at h
  | cons record rest ih =>
      rw [boundMatches]
      by_cases hsame : SameObject artifact record
      · obtain ⟨other, hmem, hother⟩ := h
        rcases List.mem_cons.1 hmem with rfl | hmem
        · exact absurd hsame hother
        · rw [if_neg (not_not.2 hsame), ih ⟨other, hmem, hother⟩]
          rfl
      · rw [if_pos hsame]

/-- A match that is kept speaks of another object. -/
def KeepsOther (settings : RABCorrelationSettings) (artifact : InputArtifact)
    (document : CorrelationDocument) : Prop :=
  ∃ record ∈ document.exact.exactMatches.take settings.maxExactRecords,
    ¬SameObject artifact record

/-- The result when all matches that are kept speak of the object. -/
def bounded (settings : RABCorrelationSettings) (document : CorrelationDocument) :
    CorrelationDocument :=
  let kept := keep settings document
  { kept with
    exact.exactMatches := kept.exact.exactMatches.map (boundMatch settings)
    knownOccurrences := kept.knownOccurrences.map (clipOccurrence settings)
    similarity.candidates := kept.similarity.candidates.map (clipCandidate settings) }

lemma validateAndBound_of_keepsOther (h : KeepsOther settings artifact document) :
    validateAndBound settings document artifact = error settings .rabIdentityConflict := by
  have hnone : boundMatches settings artifact (keep settings document).exact.exactMatches = none :=
    boundMatches_of_other h
  simp only [validateAndBound, hnone]

lemma validateAndBound_of_not_keepsOther (h : ¬KeepsOther settings artifact document) :
    validateAndBound settings document artifact = bounded settings document := by
  have hsame : ∀ record ∈ (keep settings document).exact.exactMatches,
      SameObject artifact record := by
    intro record hrecord
    by_contra hother
    exact h ⟨record, hrecord, hother⟩
  simp only [validateAndBound, boundMatches_of_same hsame]
  rfl

/-- Nothing in the match speaks of another object. -/
def Consistent (artifact : InputArtifact) (record : ExactMatch) : Prop :=
  SameObject artifact record ∧ ∀ context ∈ record.context,
    context.sha256 = artifact.hashes.sha256 ∧ context.size = artifact.byteSize

@[simp] lemma consistent_boundMatch {record : ExactMatch} :
    Consistent artifact (boundMatch settings record) ↔ Consistent artifact record := by
  unfold Consistent SameObject boundMatch
  cases record.context <;> simp [boundContext]

/-- The result says what an exact match is allowed to say. -/
def Believable (artifact : InputArtifact) (answer : CorrelationDocument) : Prop :=
  (∀ record ∈ answer.exact.exactMatches, Consistent artifact record) ∧
    (answer.exact.state = .exactMatch ↔ answer.exact.exactMatches ≠ [])

/-- What the provider promises about exact identity, of the answer it makes of a document. -/
structure IdentityKept (settings : RABCorrelationSettings) (artifact : InputArtifact)
    (document answer : CorrelationDocument) : Prop where
  believed : (∃ code, answer = error settings code) ∨ Believable artifact answer
  conflict : (∃ record ∈ document.exact.exactMatches, ¬Consistent artifact record) →
    answer = error settings .rabIdentityConflict

lemma believable_error (code : CorrelationErrorCode) :
    Believable artifact (error settings code) := by
  refine ⟨fun record h => absurd h List.not_mem_nil, ?_⟩
  cases code <;> simp [error]

lemma bounded_matches_eq_nil :
    (bounded settings document).exact.exactMatches = [] ↔ document.exact.exactMatches = [] := by
  have hpos := settings.exact_pos
  simp only [bounded, keep, List.map_eq_nil_iff, List.take_eq_nil_iff]
  constructor
  · rintro (h | h)
    · omega
    · exact h
  · exact .inr

lemma identityKept_bounded_iff :
    IdentityKept settings artifact document (bounded settings document) ↔
      (∀ record ∈ document.exact.exactMatches, Consistent artifact record) ∧
        (document.exact.state = .exactMatch ↔ document.exact.exactMatches ≠ []) := by
  have hnil := @bounded_matches_eq_nil settings document
  have hstate : (bounded settings document).exact.state = document.exact.state := rfl
  constructor
  · intro h
    have hall : ∀ record ∈ document.exact.exactMatches, Consistent artifact record := by
      by_contra hother
      push Not at hother
      have herror := h.conflict hother
      rw [herror] at hnil
      obtain ⟨record, hrecord, -⟩ := hother
      rw [hnil.1 rfl] at hrecord
      exact absurd hrecord List.not_mem_nil
    have hbelieved : Believable artifact (bounded settings document) := by
      rcases h.believed with ⟨code, hcode⟩ | hbelieved
      · rw [hcode]
        exact believable_error code
      · exact hbelieved
    refine ⟨hall, ?_⟩
    rw [← hstate, hbelieved.2, ne_eq, ne_eq, hnil]
  · rintro ⟨hall, hmatch⟩
    refine ⟨.inr ⟨fun record hrecord => ?_, ?_⟩, fun hother => ?_⟩
    · obtain ⟨original, horiginal, rfl⟩ := List.mem_map.1 hrecord
      exact consistent_boundMatch.2 (hall original (List.mem_of_mem_take horiginal))
    · rw [hstate, hmatch, ne_eq, ne_eq, hnil]
    · obtain ⟨record, hrecord, hother⟩ := hother
      exact absurd (hall record hrecord) hother

/-- An exact match can be believed exactly when a record that is kept gives the answer away, or all
records agree with the object and with the state. -/
theorem identity_kept_iff (h : Answers settings server artifact ssdeep document) :
    (∃ answer, correlate settings server artifact ssdeep = .ok answer ∧
        IdentityKept settings artifact document answer) ↔
      KeepsOther settings artifact document ∨
        (∀ record ∈ document.exact.exactMatches, Consistent artifact record) ∧
          (document.exact.state = .exactMatch ↔ document.exact.exactMatches ≠ []) := by
  rw [exists_correlate_iff h]
  by_cases hother : KeepsOther settings artifact document
  · rw [validateAndBound_of_keepsOther hother]
    exact iff_of_true ⟨.inl ⟨_, rfl⟩, fun _ => rfl⟩ (.inl hother)
  · rw [validateAndBound_of_not_keepsOther hother, identityKept_bounded_iff]
    simp only [hother, false_or]

/-! ### A context of another object -/

/-- The identity that the samples ask about. -/
def emptyObject : InputArtifact where
  hashes := .empty
  byteSize := 0
  filename := "empty"
  submittedFilename := none
  mediaType := "application/octet-stream"
  source := "upload"

/-- A server that sends one body, which the parser knows. -/
def Server.sending (body : String) (document : CorrelationDocument) : Server where
  token := .ok "token"
  post := fun _ _ => .ok ⟨200, [Binary.ascii body], none⟩
  parse := fun received =>
    if received = Binary.ascii body then .ok document else .error (.value "Expecting value")

/-- Each character is encoded by a byte at least. -/
lemma length_ascii_le (text : String) : (Binary.ascii text).length ≤ text.utf8ByteSize := by
  rw [Binary.ascii, List.length_map, ← String.ofList_toList (s := text), String.toList_ofList]
  induction text.toList with
  | nil => exact Nat.zero_le _
  | cons c rest ih =>
      have hc : 0 < c.utf8Size := c.utf8Size_pos
      rw [String.ofList_cons, String.utf8ByteSize_append, String.utf8ByteSize_singleton,
        List.length_cons]
      omega

lemma Server.sending_answers {body : String} {document : CorrelationDocument}
    (h : body.utf8ByteSize ≤ settings.maximumResponseBytes) :
    Answers settings (.sending body document) artifact ssdeep document := by
  have hle : ¬(Binary.ascii body).length > settings.maximumResponseBytes :=
    Nat.not_lt.2 ((length_ascii_le body).trans h)
  refine ⟨"token", ⟨200, [Binary.ascii body], none⟩, Binary.ascii body, rfl, rfl, ?_, ?_,
    if_pos rfl⟩
  · show 200 < 400
    omega
  · simp only [readBody, List.nil_append, if_neg hle]
    rfl

/-- What the models make of a document that names a state and nothing else. -/
def plainDocument (state : ExactLookupState) (records : List ExactMatch) : CorrelationDocument where
  protocolVersion := PyStr.ofString "1"
  providerId := "s"
  providerVersion := "1"
  state := .complete
  exact := ⟨state, records, .unavailable⟩
  similarity := ⟨PyStr.ofString "ssdeep", .notRequested, []⟩
  knownOccurrences := []
  warnings := []
  errors := []
  skippedReason := none
  fromCache := false

/-- The digest of something else. -/
def otherDigest : Digest 64 :=
  ⟨"aaaaaaaaaaaaaaaaaaaaaaaaaaaaaaaaaaaaaaaaaaaaaaaaaaaaaaaaaaaaaaaa", by decide⟩

/-- The context of an object with a digest, as far as it has to be given. -/
def plainContext (sha256 : Digest 64) : RABObjectContext where
  rabObjectId := PyStr.ofString "r"
  sha256 := sha256
  size := 0
  knownFilenames := []
  formatClassification := none
  sourceCollections := []
  provenance := []
  rights := none
  physicalOriginalOwned := none
  preservationStatus := none
  structuralValidationHistory := []
  metadataUrls := []
  authority := PyStr.ofString "RAB"

/-- A match for the empty object, with a context. -/
def emptyMatch (context : RABObjectContext) : ExactMatch where
  rabObjectId := PyStr.ofString "r"
  sha256 := Hashes.empty.sha256
  size := 0
  matchedHashes := [PyStr.ofString "sha256"]
  context := some context
  authority := PyStr.ofString "RAB"

/-- A match for the empty object that names a file and where it comes from, and an error. -/
def ownMatchBody : String :=
  "\x7b\"provider_id\":\"s\",\"provider_version\":\"1\",\"state\":\"COMPLETE\",\"exact\":\x7b" ++
    "\"state\":\"EXACT_MATCH\",\"matches\":[\x7b\"rab_object_id\":\"r\",\"sha256\":\"" ++
    Hashes.empty.sha256.val ++ "\",\"size\":0,\"context\":\x7b\"rab_object_id\":\"r\"," ++
    "\"sha256\":\"" ++ Hashes.empty.sha256.val ++
    "\",\"size\":0,\"known_filenames\":[\"empty\"]," ++
    "\"provenance\":[\x7b\"source_id\":\"shelf\"\x7d]\x7d\x7d]\x7d,\"errors\":[\"RAB_TIMEOUT\"]\x7d"

/-- What is known about the empty object. -/
def ownContext : RABObjectContext :=
  { plainContext Hashes.empty.sha256 with
    knownFilenames := [PyStr.ofString "empty"]
    provenance := [⟨some (PyStr.ofString "shelf"), none, none, none, PyStr.ofString "RAB"⟩] }

def ownMatch : CorrelationDocument :=
  { plainDocument .exactMatch [emptyMatch ownContext] with errors := [.rabTimeout] }

theorem own_match_believed :
    ∃ answer, correlate .default (.sending ownMatchBody ownMatch) emptyObject none =
      .ok answer ∧ IdentityKept .default emptyObject ownMatch answer := by
  refine (identity_kept_iff (Server.sending_answers (by decide +kernel))).2 (.inr ⟨?_, ?_⟩)
  · intro record hrecord
    obtain rfl : record = emptyMatch ownContext := List.mem_singleton.1 hrecord
    refine ⟨⟨rfl, rfl⟩, fun context hcontext => ?_⟩
    obtain rfl := Option.some.inj hcontext
    exact ⟨rfl, rfl⟩
  · exact iff_of_true rfl (List.cons_ne_nil _ _)

/-- A match for the empty object whose context is that of another one. -/
def otherContextBody : String :=
  "\x7b\"provider_id\":\"s\",\"provider_version\":\"1\",\"state\":\"COMPLETE\",\"exact\":\x7b" ++
    "\"state\":\"EXACT_MATCH\",\"matches\":[\x7b\"rab_object_id\":\"r\",\"sha256\":\"" ++
    Hashes.empty.sha256.val ++ "\",\"size\":0,\"context\":\x7b\"rab_object_id\":\"r\"," ++
    "\"sha256\":\"" ++ otherDigest.val ++ "\",\"size\":0\x7d\x7d]\x7d\x7d"

def otherContext : CorrelationDocument :=
  plainDocument .exactMatch [emptyMatch (plainContext otherDigest)]

/-- The context of a match is not looked at. -/
theorem other_context_believed :
    ¬∃ answer, correlate .default (.sending otherContextBody otherContext) emptyObject none =
        .ok answer ∧ IdentityKept .default emptyObject otherContext answer := by
  have hanswers : Answers .default (.sending otherContextBody otherContext) emptyObject none
      otherContext := Server.sending_answers (by decide +kernel)
  rw [exists_correlate_iff hanswers]
  have hsame : ¬KeepsOther .default emptyObject otherContext := by
    rintro ⟨record, hrecord, hother⟩
    obtain rfl : record = emptyMatch (plainContext otherDigest) := List.mem_singleton.1 hrecord
    exact hother ⟨rfl, rfl⟩
  rw [validateAndBound_of_not_keepsOther hsame, identityKept_bounded_iff]
  rintro ⟨hall, -⟩
  have hcontext := (hall _ List.mem_cons_self).2 _ rfl
  revert hcontext
  decide

/-! ## The bounds of the result -/

/-- The configured limits on numbers of records. -/
def recordLimits (settings : RABCorrelationSettings) : List ℕ :=
  [settings.maxExactRecords, settings.maxOccurrences, settings.maxSimilarityCandidates,
    settings.maxProvenanceRecords]

/-- A length within one of the limits on numbers of records. -/
def Limited (settings : RABCorrelationSettings) (length : ℕ) : Prop :=
  ∃ limit ∈ recordLimits settings, length ≤ limit

/-- Strings within the limit on strings. -/
def Short (settings : RABCorrelationSettings) (texts : List PyStr) : Prop :=
  ∀ text ∈ texts, text.length ≤ settings.maxMetadataStringLength

/-- The lengths of the lists of a context that have no limit of their own. -/
def contextLists (context : RABObjectContext) : List ℕ :=
  [context.knownFilenames.length, context.sourceCollections.length, context.metadataUrls.length,
    context.structuralValidationHistory.length]

/-- The lengths of the lists that have no limit of their own. -/
def otherLists (document : CorrelationDocument) : List ℕ :=
  [document.warnings.length, document.errors.length] ++
    document.exact.exactMatches.map (·.matchedHashes.length) ++
    document.contexts.flatMap contextLists

/-- What the provider promises about the size of a result. -/
structure Bounded (settings : RABCorrelationSettings) (answer : CorrelationDocument) : Prop where
  records : answer.exact.exactMatches.length ≤ settings.maxExactRecords
  occurrences : answer.knownOccurrences.length ≤ settings.maxOccurrences
  candidates : answer.similarity.candidates.length ≤ settings.maxSimilarityCandidates
  provenance : ∀ context ∈ answer.contexts,
    context.provenance.length ≤ settings.maxProvenanceRecords
  lists : ∀ length ∈ otherLists answer, Limited settings length
  texts : Short settings answer.texts

section Overlooked

variable (settings : RABCorrelationSettings)

/-- The strings of a context that are not cut. -/
def contextOverlooked (context : RABObjectContext) : List PyStr :=
  [context.rabObjectId, context.sha256.text] ++ context.formatClassification.toList ++
    (context.provenance.take settings.maxProvenanceRecords).map (·.authority) ++
    context.rights.toList.flatMap Rights.texts ++ context.preservationStatus.toList ++
    context.structuralValidationHistory.flatMap StructuralHistoryRecord.texts ++
    [context.authority]

/-- The strings of a match that are not cut. -/
def matchOverlooked (record : ExactMatch) : List PyStr :=
  [record.rabObjectId, record.sha256.text] ++ record.matchedHashes ++
    record.context.toList.flatMap (contextOverlooked settings) ++ [record.authority]

/-- The strings of an occurrence that are not cut. -/
def occurrenceOverlooked (occurrence : KnownOccurrence) : List PyStr :=
  [occurrence.parentRabObjectId, occurrence.relationship, occurrence.authority]

/-- The strings of a candidate that are not cut. -/
def candidateOverlooked (candidate : SimilarityCandidate) : List PyStr :=
  [candidate.algorithm, candidate.rabObjectId, candidate.candidateSha256.text,
    candidate.assessment, candidate.authority]

/-- The strings of the records that are kept, as far as they are not cut.  The error codes are not
among them: a code has 22 characters at most, and no limit on strings is below 32. -/
def overlooked (document : CorrelationDocument) : List PyStr :=
  let kept := keep settings document
  [kept.protocolVersion] ++ kept.exact.exactMatches.flatMap (matchOverlooked settings) ++
    [kept.similarity.algorithm] ++ kept.similarity.candidates.flatMap candidateOverlooked ++
    kept.knownOccurrences.flatMap occurrenceOverlooked ++ kept.warnings ++
    kept.skippedReason.toList

end Overlooked

@[simp] lemma short_nil : Short settings [] := fun _ h => absurd h List.not_mem_nil

@[simp] lemma short_cons {text : PyStr} {texts : List PyStr} :
    Short settings (text :: texts) ↔
      text.length ≤ settings.maxMetadataStringLength ∧ Short settings texts :=
  List.forall_mem_cons

@[simp] lemma short_append {texts others : List PyStr} :
    Short settings (texts ++ others) ↔ Short settings texts ∧ Short settings others :=
  List.forall_mem_append

lemma short_flatMap {α : Type} {f : α → List PyStr} {items : List α} :
    Short settings (items.flatMap f) ↔ ∀ item ∈ items, Short settings (f item) := by
  simp only [Short, List.mem_flatMap]
  constructor
  · exact fun h item hitem text htext => h text ⟨item, hitem, htext⟩
  · rintro h text ⟨item, hitem, htext⟩
    exact h item hitem text htext

/-- A pass over the items of a list leaves them short if what it does not cut is short. -/
lemma short_flatMap_map {α β : Type} {f : β → List PyStr} {g : α → List PyStr} {pass : α → β}
    (h : ∀ item, Short settings (f (pass item)) ↔ Short settings (g item)) {items : List α} :
    Short settings ((items.map pass).flatMap f) ↔ Short settings (items.flatMap g) := by
  rw [short_flatMap, short_flatMap]
  simp [h]

@[simp] lemma length_clip_le (text : PyStr) :
    (clip settings text).length ≤ settings.maxMetadataStringLength := List.length_take_le ..

@[simp] lemma short_map_clip (texts : List PyStr) : Short settings (texts.map (clip settings)) := by
  intro text htext
  obtain ⟨original, -, rfl⟩ := List.mem_map.1 htext
  exact length_clip_le original

@[simp] lemma short_option_clip (text : Option PyStr) :
    Short settings (text.map (clip settings)).toList := by
  cases text <;> simp

lemma short_clipProvenance (record : ProvenanceRecord) :
    Short settings (clipProvenance settings record).texts ↔ Short settings [record.authority] := by
  simp [ProvenanceRecord.texts, clipProvenance]

lemma short_boundContext (context : RABObjectContext) :
    Short settings (boundContext settings context).texts ↔
      Short settings (contextOverlooked settings context) := by
  have hprovenance : Short settings
      (((context.provenance.take settings.maxProvenanceRecords).map
        (clipProvenance settings)).flatMap ProvenanceRecord.texts) ↔
      Short settings
        ((context.provenance.take settings.maxProvenanceRecords).map (·.authority)) := by
    rw [short_flatMap_map short_clipProvenance]
    rw [← List.map_eq_flatMap]
  simp only [RABObjectContext.texts, boundContext, contextOverlooked, short_append, short_map_clip,
    hprovenance, and_true]

lemma short_boundMatch (record : ExactMatch) :
    Short settings (boundMatch settings record).texts ↔
      Short settings (matchOverlooked settings record) := by
  cases hcontext : record.context with
  | none => simp [ExactMatch.texts, boundMatch, matchOverlooked, hcontext]
  | some context =>
      simp [ExactMatch.texts, boundMatch, matchOverlooked, hcontext, short_boundContext]

lemma short_clipOccurrence (occurrence : KnownOccurrence) :
    Short settings (clipOccurrence settings occurrence).texts ↔
      Short settings (occurrenceOverlooked occurrence) := by
  simp [KnownOccurrence.texts, clipOccurrence, occurrenceOverlooked]

lemma short_clipCandidate (candidate : SimilarityCandidate) :
    Short settings (clipCandidate settings candidate).texts ↔
      Short settings (candidateOverlooked candidate) := by
  simp [SimilarityCandidate.texts, clipCandidate, candidateOverlooked]

/-- Every error code is within every limit on strings. -/
@[simp] lemma short_errors (codes : List CorrelationErrorCode) :
    Short settings (codes.map CorrelationErrorCode.text) := by
  intro text htext
  obtain ⟨code, -, rfl⟩ := List.mem_map.1 htext
  have hcode : code.text.length ≤ 22 := by cases code <;> decide
  have hmin := settings.string_min
  omega

lemma short_bounded :
    Short settings (bounded settings document).texts ↔
      Short settings (overlooked settings document) := by
  have herrors : Short settings ((keep settings document).errors.map CorrelationErrorCode.text) :=
    short_errors _
  simp only [CorrelationDocument.texts, bounded, overlooked, short_append,
    short_flatMap_map short_boundMatch, short_flatMap_map short_clipCandidate,
    short_flatMap_map short_clipOccurrence, herrors, and_true]

lemma contexts_bounded :
    (bounded settings document).contexts =
      (keep settings document).contexts.map (boundContext settings) := by
  simp only [CorrelationDocument.contexts, bounded, List.filterMap_map, List.map_filterMap]
  rfl

lemma otherLists_bounded :
    otherLists (bounded settings document) = otherLists (keep settings document) := by
  have hcontext : ∀ context, contextLists (boundContext settings context) =
      contextLists context := by
    intro context
    simp [contextLists, boundContext]
  rw [otherLists, otherLists, contexts_bounded, List.flatMap_map]
  simp only [hcontext]
  simp [bounded, boundMatch, Function.comp_def]

lemma bounded_bounded_iff :
    Bounded settings (bounded settings document) ↔
      (∀ length ∈ otherLists (keep settings document), Limited settings length) ∧
        Short settings (overlooked settings document) := by
  constructor
  · intro h
    exact ⟨otherLists_bounded ▸ h.lists, short_bounded.1 h.texts⟩
  · rintro ⟨hlists, htexts⟩
    refine ⟨?_, ?_, ?_, fun context hcontext => ?_, otherLists_bounded ▸ hlists,
      short_bounded.2 htexts⟩
    · simp [bounded, keep]
    · simp [bounded, keep]
    · simp [bounded, keep]
    · rw [contexts_bounded] at hcontext
      obtain ⟨original, -, rfl⟩ := List.mem_map.1 hcontext
      simp [boundContext]

lemma bounded_error (code : CorrelationErrorCode) : Bounded settings (error settings code) := by
  have hmin := settings.string_min
  have hexact := settings.exact_pos
  refine ⟨Nat.zero_le _, Nat.zero_le _, Nat.zero_le _, fun _ h => absurd h List.not_mem_nil, ?_, ?_⟩
  · intro length hlength
    obtain rfl | rfl := List.mem_pair.1 hlength
    · exact ⟨_, List.mem_cons_self, Nat.zero_le _⟩
    · exact ⟨_, List.mem_cons_self, hexact⟩
  · have hone : (PyStr.ofString "1").length = 1 := by decide
    have hssdeep : (PyStr.ofString "ssdeep").length = 6 := by decide
    simp only [CorrelationDocument.texts, error, short_append, short_cons, List.flatMap_nil,
      Option.toList_none, short_nil, short_errors, and_true, hone, hssdeep]
    omega

/-- A result is within the bounds exactly when a record that is kept gives the answer away, or the
strings that are not cut and the lists without a limit are within the bounds from the start. -/
theorem result_bounded_iff (h : Answers settings server artifact ssdeep document) :
    (∃ answer, correlate settings server artifact ssdeep = .ok answer ∧
        Bounded settings answer) ↔
      KeepsOther settings artifact document ∨
        (∀ length ∈ otherLists (keep settings document), Limited settings length) ∧
          Short settings (overlooked settings document) := by
  rw [exists_correlate_iff h]
  by_cases hother : KeepsOther settings artifact document
  · rw [validateAndBound_of_keepsOther hother]
    exact iff_of_true (bounded_error _) (.inl hother)
  · rw [validateAndBound_of_not_keepsOther hother, bounded_bounded_iff]
    simp only [hother, false_or]

theorem own_match_bounded :
    ∃ answer, correlate .default (.sending ownMatchBody ownMatch) emptyObject none =
      .ok answer ∧ Bounded .default answer := by
  refine (result_bounded_iff (Server.sending_answers (by decide +kernel))).2 (.inr ⟨?_, ?_⟩)
  · unfold Limited
    decide
  · unfold Short
    decide

/-! ### A reason that is too long -/

/-- Settings with the smallest limit on strings. -/
def shortSettings : RABCorrelationSettings :=
  { RABCorrelationSettings.default with
    maxMetadataStringLength := 32
    string_min := by decide }

def longReason : String := "the similarity index is rebuilding"

/-- No match, and a reason for it. -/
def longReasonBody : String :=
  "\x7b\"provider_id\":\"s\",\"provider_version\":\"1\",\"state\":\"COMPLETE\"," ++
    "\"exact\":\x7b\"state\":\"NO_EXACT_MATCH\"\x7d,\"skipped_reason\":\"" ++ longReason ++
    "\"\x7d"

def longReasonDocument : CorrelationDocument :=
  { plainDocument .noExactMatch [] with skippedReason := some (PyStr.ofString longReason) }

/-- A reason of 34 characters passes a limit of 32. -/
theorem long_reason_kept :
    ¬∃ answer, correlate shortSettings (.sending longReasonBody longReasonDocument) emptyObject
        none = .ok answer ∧ Bounded shortSettings answer := by
  have hanswers : Answers shortSettings (.sending longReasonBody longReasonDocument) emptyObject
      none longReasonDocument := Server.sending_answers (by decide +kernel)
  rw [exists_correlate_iff hanswers]
  have hsame : ¬KeepsOther shortSettings emptyObject longReasonDocument := by
    rintro ⟨record, hrecord, -⟩
    exact absurd hrecord List.not_mem_nil
  rw [validateAndBound_of_not_keepsOther hsame, bounded_bounded_iff]
  rintro ⟨-, hshort⟩
  have hreason : (PyStr.ofString longReason).length ≤ 32 := hshort _ (by decide)
  revert hreason
  decide

end Provider

end HTTPRabCorrelationProvider

end AVBox
