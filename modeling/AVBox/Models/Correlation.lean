import AVBox.Models.Jobs

/-!
# What a correlation server may answer

The records of `models/correlation.py`, with all of their fields but the times.  Every text in them
is chosen by the server, except for the digests, which the models check.

`texts` lists the strings of a record that come from the response.  `CorrelationDocument` is
`CorrelationResult` in full; what a job keeps of it is in `Models/Jobs.lean`.
-/

namespace AVBox

inductive RightsStatus
  | allowed
  | restricted
  | unknown
  deriving DecidableEq, Repr

structure Rights where
  redistributionRights : RightsStatus
  acquisitionBasis : Option PyStr
  sourceProvenance : Option PyStr
  deriving DecidableEq

def Rights.texts (rights : Rights) : List PyStr :=
  rights.acquisitionBasis.toList ++ rights.sourceProvenance.toList

inductive ExactLookupState
  | exactMatch
  | noExactMatch
  | rabUnavailable
  | error
  deriving DecidableEq, Repr

inductive CorrelationErrorCode
  | rabUnavailable
  | rabTimeout
  | rabAuthFailed
  | rabProtocolError
  | rabResponseTooLarge
  | rabIdentityConflict
  deriving DecidableEq, Repr

/-- The value of the enumeration. -/
def CorrelationErrorCode.text : CorrelationErrorCode → PyStr
  | .rabUnavailable => PyStr.ofString "RAB_UNAVAILABLE"
  | .rabTimeout => PyStr.ofString "RAB_TIMEOUT"
  | .rabAuthFailed => PyStr.ofString "RAB_AUTH_FAILED"
  | .rabProtocolError => PyStr.ofString "RAB_PROTOCOL_ERROR"
  | .rabResponseTooLarge => PyStr.ofString "RAB_RESPONSE_TOO_LARGE"
  | .rabIdentityConflict => PyStr.ofString "RAB_IDENTITY_CONFLICT"

structure ProvenanceRecord where
  sourceId : Option PyStr
  sourceLabel : Option PyStr
  collection : Option PyStr
  summary : Option PyStr
  authority : PyStr
  deriving DecidableEq

def ProvenanceRecord.texts (record : ProvenanceRecord) : List PyStr :=
  record.sourceId.toList ++ record.sourceLabel.toList ++ record.collection.toList ++
    record.summary.toList ++ [record.authority]

structure KnownOccurrence where
  parentRabObjectId : PyStr
  relationship : PyStr
  logicalPath : Option PyStr
  parentLabel : Option PyStr
  authority : PyStr
  deriving DecidableEq

def KnownOccurrence.texts (occurrence : KnownOccurrence) : List PyStr :=
  [occurrence.parentRabObjectId, occurrence.relationship] ++ occurrence.logicalPath.toList ++
    occurrence.parentLabel.toList ++ [occurrence.authority]

structure StructuralHistoryRecord where
  state : PyStr
  validator : Option PyStr
  summary : Option PyStr
  authority : PyStr
  deriving DecidableEq

def StructuralHistoryRecord.texts (record : StructuralHistoryRecord) : List PyStr :=
  [record.state] ++ record.validator.toList ++ record.summary.toList ++ [record.authority]

/-- The text of a digest. -/
def Digest.text {n : ℕ} (digest : Digest n) : PyStr := PyStr.ofString digest.val

structure RABObjectContext where
  rabObjectId : PyStr
  sha256 : Digest 64
  size : ℕ
  knownFilenames : List PyStr
  formatClassification : Option PyStr
  sourceCollections : List PyStr
  provenance : List ProvenanceRecord
  rights : Option Rights
  physicalOriginalOwned : Option Bool
  preservationStatus : Option PyStr
  structuralValidationHistory : List StructuralHistoryRecord
  metadataUrls : List PyStr
  authority : PyStr
  deriving DecidableEq

def RABObjectContext.texts (context : RABObjectContext) : List PyStr :=
  [context.rabObjectId, context.sha256.text] ++ context.knownFilenames ++
    context.formatClassification.toList ++ context.sourceCollections ++
    context.provenance.flatMap ProvenanceRecord.texts ++
    context.rights.toList.flatMap Rights.texts ++ context.preservationStatus.toList ++
    context.structuralValidationHistory.flatMap StructuralHistoryRecord.texts ++
    context.metadataUrls ++ [context.authority]

structure ExactMatch where
  rabObjectId : PyStr
  sha256 : Digest 64
  size : ℕ
  matchedHashes : List PyStr
  context : Option RABObjectContext
  authority : PyStr
  deriving DecidableEq

def ExactMatch.texts (record : ExactMatch) : List PyStr :=
  [record.rabObjectId, record.sha256.text] ++ record.matchedHashes ++
    record.context.toList.flatMap RABObjectContext.texts ++ [record.authority]

structure ExactCorrelation where
  state : ExactLookupState
  exactMatches : List ExactMatch
  completeness : CorrelationState
  deriving DecidableEq

structure SimilarityCandidate where
  algorithm : PyStr
  queryFingerprint : PyStr
  candidateFingerprint : PyStr
  score : ℕ
  rabObjectId : PyStr
  candidateSha256 : Digest 64
  assessment : PyStr
  authority : PyStr
  deriving DecidableEq

def SimilarityCandidate.texts (candidate : SimilarityCandidate) : List PyStr :=
  [candidate.algorithm, candidate.queryFingerprint, candidate.candidateFingerprint,
    candidate.rabObjectId, candidate.candidateSha256.text, candidate.assessment,
    candidate.authority]

structure SimilarityCorrelation where
  algorithm : PyStr
  state : CorrelationState
  candidates : List SimilarityCandidate
  deriving DecidableEq

/-- `CorrelationResult`, in full. -/
structure CorrelationDocument where
  protocolVersion : PyStr
  providerId : String
  providerVersion : String
  state : CorrelationState
  exact : ExactCorrelation
  similarity : SimilarityCorrelation
  knownOccurrences : List KnownOccurrence
  warnings : List PyStr
  errors : List CorrelationErrorCode
  skippedReason : Option PyStr
  fromCache : Bool
  deriving DecidableEq

namespace CorrelationDocument

variable (document : CorrelationDocument)

/-- The strings that come from the response.  The identity of the provider does not. -/
def texts : List PyStr :=
  [document.protocolVersion] ++ document.exact.exactMatches.flatMap ExactMatch.texts ++
    [document.similarity.algorithm] ++
    document.similarity.candidates.flatMap SimilarityCandidate.texts ++
    document.knownOccurrences.flatMap KnownOccurrence.texts ++ document.warnings ++
    document.errors.map CorrelationErrorCode.text ++ document.skippedReason.toList

/-- The contexts of the exact matches. -/
def contexts : List RABObjectContext := document.exact.exactMatches.filterMap ExactMatch.context

end CorrelationDocument

end AVBox
