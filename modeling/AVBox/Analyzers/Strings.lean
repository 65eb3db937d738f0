import AVBox.Analyzers.Executable
import AVBox.Lib.Decoding
import AVBox.Lib.Runs
import Mathlib.Data.List.Induction

/-!
# Extracted strings

`StringsAnalyzer` of `analyzers/static.py`: six decoded views of the beginning of a file are
searched for printable runs, and what is found is cut down to four limits.

The loop over the runs is written for characters of any type, so that it can also be run on
characters that remember where they were read (`Place`).  The values that are reported are then the
texts of places, and they are in the file exactly when nothing was dropped inside them.
-/

namespace AVBox

open Binary

/-- The settings of the extractor, as `RuntimeSettings` admits them. -/
structure StringSettings where
  stringsMinLength : ℕ
  stringsMaxLength : ℕ
  stringsMaxCount : ℕ
  stringsMaxTotalChars : ℕ
  stringsMaxSourceBytes : ℕ
  minLength_bounds : 2 ≤ stringsMinLength ∧ stringsMinLength ≤ 1024
  maxLength_bounds : 4 ≤ stringsMaxLength ∧ stringsMaxLength ≤ 65536
  maxCount_bounds : 1 ≤ stringsMaxCount ∧ stringsMaxCount ≤ 100000
  maxTotalChars_bounds : 64 ≤ stringsMaxTotalChars ∧ stringsMaxTotalChars ≤ 10000000
  maxSourceBytes_bound : 1024 ≤ stringsMaxSourceBytes

/-- The defaults of `RuntimeSettings`. -/
def StringSettings.default : StringSettings where
  stringsMinLength := 4
  stringsMaxLength := 4096
  stringsMaxCount := 2000
  stringsMaxTotalChars := 200000
  stringsMaxSourceBytes := 16 * 1024 * 1024
  minLength_bounds := by decide
  maxLength_bounds := by decide
  maxCount_bounds := by decide
  maxTotalChars_bounds := by decide
  maxSourceBytes_bound := by decide

/-- The fields of a `StringsAnalyzer`.  `minimum` is read by nothing. -/
structure StringsAnalyzer where
  minimum : ℕ
  maximum : ℕ
  maximumCount : ℕ
  maximumTotal : ℕ
  maximumSource : ℕ

namespace StringsAnalyzer

/-- `__init__`. -/
def init (settings : StringSettings) : StringsAnalyzer where
  minimum := settings.stringsMinLength
  maximum := settings.stringsMaxLength
  maximumCount := settings.stringsMaxCount
  maximumTotal := settings.stringsMaxTotalChars
  maximumSource := settings.stringsMaxSourceBytes

/-! ## Decoders -/

inductive Encoding
  | ascii
  | utf8
  | utf16le
  | utf16be
  deriving DecidableEq, Repr

def Encoding.name : Encoding → String
  | .ascii => "ASCII"
  | .utf8 => "UTF-8"
  | .utf16le => "UTF-16LE"
  | .utf16be => "UTF-16BE"

def asciiRead : Bytes → Option (Fin 0x110000 × ℕ)
  | [] => none
  | byte :: _ => if byte.toNat < 0x80 then some (Fin.ofNat 0x110000 byte.toNat, 1) else none

/-- The `ascii` codec. -/
def asciiCodec : Decoder UInt8 (Fin 0x110000) where
  read := asciiRead
  further := fun _ => 0
  read_pos {units c size} h := by
    cases units with
    | nil => simp [asciiRead] at h
    | cons byte bytes =>
        simp only [asciiRead, Option.ite_none_right_eq_some, Option.some.injEq,
          Prod.mk.injEq] at h
        rw [List.length_cons]
        omega
  read_front {units c size} h rest := by
    cases units with
    | nil => simp [asciiRead] at h
    | cons byte bytes =>
        have hread := h
        simp only [asciiRead, Option.ite_none_right_eq_some, Option.some.injEq,
          Prod.mk.injEq] at h
        obtain ⟨-, -, rfl⟩ := h
        exact hread

/-- The continuation bytes of a character: its value if all of them are there, and how many are. -/
def utf8Tail : ℕ → ℕ → ℕ → ℕ → Bytes → Option ℕ × ℕ
  | 0, _, _, value, _ => (some value, 0)
  | _ + 1, _, _, _, [] => (none, 0)
  | left + 1, low, high, value, byte :: bytes =>
      if low ≤ byte.toNat ∧ byte.toNat ≤ high then
        let tail := utf8Tail left 0x80 0xBF (value * 64 + byte.toNat % 64) bytes
        (tail.1, tail.2 + 1)
      else (none, 0)

def utf8Read : Bytes → Option (Fin 0x110000 × ℕ)
  | [] => none
  | byte :: bytes => do
      let (left, low, high, value) ← PyStr.utf8Lead byte.toNat
      let tail := utf8Tail left low high value bytes
      let value ← tail.1
      return (Fin.ofNat 0x110000 value, tail.2 + 1)

/-- The continuation bytes that are dropped together with the byte they belong to. -/
def utf8Further : Bytes → ℕ
  | [] => 0
  | byte :: bytes =>
      match PyStr.utf8Lead byte.toNat with
      | none => 0
      | some (left, low, high, value) => (utf8Tail left low high value bytes).2

lemma utf8Tail_front {left low high value result count : ℕ} {bytes : Bytes}
    (h : utf8Tail left low high value bytes = (some result, count)) :
    count = left ∧ left ≤ bytes.length ∧
      ∀ rest, utf8Tail left low high value (bytes.take left ++ rest) = (some result, left) := by
  induction left generalizing low high value count bytes with
  | zero =>
      simp only [utf8Tail, Prod.mk.injEq, Option.some.injEq] at h
      obtain ⟨rfl, rfl⟩ := h
      exact ⟨rfl, Nat.zero_le _, fun _ => by simp [utf8Tail]⟩
  | succ left ih =>
      cases bytes with
      | nil => simp [utf8Tail] at h
      | cons byte bytes =>
          by_cases hrange : low ≤ byte.toNat ∧ byte.toNat ≤ high
          · rw [utf8Tail, if_pos hrange] at h
            obtain ⟨hresult, rfl⟩ := Prod.mk.inj h
            obtain ⟨hleft, hlength, hfront⟩ := ih (Prod.ext hresult rfl)
            refine ⟨congrArg (· + 1) hleft, by simpa using hlength, fun rest => ?_⟩
            rw [List.take_succ_cons, List.cons_append, utf8Tail, if_pos hrange, hfront]
          · rw [utf8Tail, if_neg hrange] at h
            cases h

lemma utf8Read_eq_some {bytes : Bytes} {c : Fin 0x110000} {size : ℕ} :
    utf8Read bytes = some (c, size) ↔ ∃ byte rest left low high value result count,
      bytes = byte :: rest ∧ PyStr.utf8Lead byte.toNat = some (left, low, high, value) ∧
        utf8Tail left low high value rest = (some result, count) ∧
          c = Fin.ofNat 0x110000 result ∧ size = count + 1 := by
  constructor
  · intro h
    cases bytes with
    | nil => simp [utf8Read] at h
    | cons byte rest =>
        simp only [utf8Read, Option.bind_eq_bind, Option.bind_eq_some_iff] at h
        obtain ⟨⟨left, low, high, value⟩, hlead, result, hresult, hfront⟩ := h
        obtain ⟨rfl, rfl⟩ := Prod.mk.inj (Option.some.inj hfront)
        exact ⟨byte, rest, left, low, high, value, result, _, rfl, hlead, Prod.ext hresult rfl,
          rfl, rfl⟩
  · rintro ⟨byte, rest, left, low, high, value, result, count, rfl, hlead, htail, rfl, rfl⟩
    simp [utf8Read, hlead, htail]

/-- The `utf-8` codec. -/
def utf8Codec : Decoder UInt8 (Fin 0x110000) where
  read := utf8Read
  further := utf8Further
  read_pos {units c size} h := by
    obtain ⟨byte, rest, left, low, high, value, result, count, rfl, -, htail, -, rfl⟩ :=
      utf8Read_eq_some.1 h
    obtain ⟨rfl, hlength, -⟩ := utf8Tail_front htail
    rw [List.length_cons]
    omega
  read_front {units c size} h rest := by
    obtain ⟨byte, bytes, left, low, high, value, result, count, rfl, hlead, htail, hc, rfl⟩ :=
      utf8Read_eq_some.1 h
    obtain ⟨rfl, -, hfront⟩ := utf8Tail_front htail
    exact utf8Read_eq_some.2 ⟨byte, _, _, _, _, _, _, _, rfl, hlead, hfront rest, hc, rfl⟩

/-- The code unit that two bytes are. -/
def utf16Unit (little : Bool) (first second : UInt8) : ℕ :=
  if little then first.toNat + 256 * second.toNat else 256 * first.toNat + second.toNat

def utf16Read (little : Bool) : Bytes → Option (Fin 0x110000 × ℕ)
  | first :: second :: rest =>
      let unit := utf16Unit little first second
      if unit < 0xD800 ∨ 0xDFFF < unit then some (Fin.ofNat 0x110000 unit, 2)
      else if 0xDC00 ≤ unit then none
      else match rest with
        | third :: fourth :: _ =>
            let low := utf16Unit little third fourth
            if 0xDC00 ≤ low ∧ low ≤ 0xDFFF then
              some (Fin.ofNat 0x110000 (0x10000 + (unit - 0xD800) * 0x400 + (low - 0xDC00)), 4)
            else none
        | _ => none
  | _ => none

lemma utf16Read_cases {little : Bool} {bytes : Bytes} {c : Fin 0x110000} {size : ℕ}
    (h : utf16Read little bytes = some (c, size)) :
    ∃ front rest, bytes = front ++ rest ∧ front.length = size ∧ 0 < size ∧
      ∀ rest, utf16Read little (front ++ rest) = some (c, size) := by
  match bytes, h with
  | [], h => simp [utf16Read] at h
  | [_], h => simp [utf16Read] at h
  | first :: second :: rest, h =>
      by_cases hscalar : utf16Unit little first second < 0xD800 ∨
          0xDFFF < utf16Unit little first second
      · have hread (rest : Bytes) : utf16Read little (first :: second :: rest) =
            some (Fin.ofNat 0x110000 (utf16Unit little first second), 2) := by
          simp only [utf16Read, if_pos hscalar]
        rw [hread] at h
        obtain ⟨rfl, rfl⟩ := Prod.mk.inj (Option.some.inj h)
        exact ⟨[first, second], rest, rfl, rfl, Nat.two_pos, hread⟩
      · by_cases hlow : 0xDC00 ≤ utf16Unit little first second
        · simp only [utf16Read, if_neg hscalar, if_pos hlow] at h
          cases h
        · match rest, h with
          | [], h => simp [utf16Read, hscalar, hlow] at h
          | [_], h => simp [utf16Read, hscalar, hlow] at h
          | third :: fourth :: rest, h =>
              by_cases hpair : 0xDC00 ≤ utf16Unit little third fourth ∧
                  utf16Unit little third fourth ≤ 0xDFFF
              · have hread (rest : Bytes) :
                    utf16Read little (first :: second :: third :: fourth :: rest) =
                      some (Fin.ofNat 0x110000 (0x10000 +
                        (utf16Unit little first second - 0xD800) * 0x400 +
                          (utf16Unit little third fourth - 0xDC00)), 4) := by
                  simp only [utf16Read, if_neg hscalar, if_neg hlow, if_pos hpair]
                rw [hread] at h
                obtain ⟨rfl, rfl⟩ := Prod.mk.inj (Option.some.inj h)
                exact ⟨[first, second, third, fourth], rest, rfl, rfl, by decide, hread⟩
              · simp only [utf16Read, if_neg hscalar, if_neg hlow, if_neg hpair] at h
                cases h

/-- The `utf-16le` and `utf-16be` codecs. -/
def utf16Codec (little : Bool) : Decoder UInt8 (Fin 0x110000) where
  read := utf16Read little
  further := fun _ => 1
  read_pos {units c size} h := by
    obtain ⟨front, rest, rfl, rfl, hpos, -⟩ := utf16Read_cases h
    exact ⟨hpos, by simp⟩
  read_front {units c size} h rest := by
    obtain ⟨front, others, rfl, rfl, -, hfront⟩ := utf16Read_cases h
    rw [List.take_left']
    · exact hfront rest
    · rfl

def Encoding.decoder : Encoding → Decoder UInt8 (Fin 0x110000)
  | .ascii => asciiCodec
  | .utf8 => utf8Codec
  | .utf16le => utf16Codec true
  | .utf16be => utf16Codec false

/-! ## Views -/

/-- The characters of `PRINTABLE` and of `STRING_RE`. -/
def isPrintable (c : Fin 0x110000) : Bool := decide (0x20 ≤ c.val ∧ c.val < 0x7F)

/-- `value if value in PRINTABLE else 0x00`. -/
def masked (value : UInt8) : UInt8 := if 0x20 ≤ value.toNat ∧ value.toNat < 0x7F then value else 0

/-- `data[offset : offset + len(data[offset:]) - (len(data[offset:]) % 2)]`. -/
def aligned (data : Bytes) (offset : ℕ) : Bytes :=
  let length := (data.drop offset).length
  slice data offset (offset + length - length % 2)

/-- A view before it is decoded: its bytes begin at `offset` of the data. -/
structure View where
  encoding : Encoding
  offset : ℕ
  bytes : Bytes

def View.text (view : View) : PyStr := view.encoding.decoder.lenient view.bytes

def views (data : Bytes) : List View :=
  [⟨.ascii, 0, data.map masked⟩, ⟨.utf8, 0, data⟩, ⟨.utf16le, 0, aligned data 0⟩,
    ⟨.utf16le, 1, aligned data 1⟩, ⟨.utf16be, 0, aligned data 0⟩, ⟨.utf16be, 1, aligned data 1⟩]

/-- `_decoded_views`. -/
def decodedViews (data : Bytes) : List (Encoding × PyStr) :=
  (views data).map fun view => (view.encoding, view.text)

/-- What `STRING_RE.finditer` finds in the views, in order. -/
def found (data : Bytes) : List (Encoding × PyStr) :=
  (decodedViews data).flatMap fun view =>
    (Runs.runs isPrintable 2 view.2).map fun value => (view.1, value)

/-! ## The loop -/

variable {κ α β : Type} (self : StringsAnalyzer)

/-- The variables of the loop over the matches. -/
structure Collected (κ α : Type) where
  values : List (κ × List α)
  observed : ℕ
  sourceTruncated : Bool

/-- The number of characters of the values. -/
def Collected.total (state : Collected κ α) : ℕ :=
  (state.values.map fun item => item.2.length).sum

/-- `value[: self.maximum]`, for a value that is too long. -/
def cut (value : List α) : List α :=
  if value.length > self.maximum then value.take self.maximum else value

/-- One pass of the loop. -/
def collectOne (state : Collected κ α) (item : κ × List α) : Collected κ α :=
  let value := self.cut item.2
  let state :=
    { state with
      observed := state.observed + 1
      sourceTruncated := state.sourceTruncated || decide (item.2.length > self.maximum) }
  if state.values.length ≥ self.maximumCount then { state with sourceTruncated := true }
  else if state.total + value.length > self.maximumTotal then
    { state with sourceTruncated := true }
  else { state with values := state.values ++ [(item.1, value)] }

def collect (sourceTruncated : Bool) (items : List (κ × List α)) : Collected κ α :=
  items.foldl self.collectOne ⟨[], 0, sourceTruncated⟩

/-! ## The result -/

inductive StringsValue
  | count (number : ℕ)
  | flag (value : Bool)
  | encoding (name : String)
  | item (encoding : Encoding) (value : PyStr)
  deriving DecidableEq

structure StringsObservation where
  observationType : String
  value : StringsValue
  deriving DecidableEq

structure Assessment where
  assessmentType : String
  statement : String
  confidence : String
  evidenceRefs : List String
  deriving DecidableEq

/-- What of an `AnalyzerResult` is not the same for all files. -/
structure StringsResult where
  nativeStatus : String
  qualificationState : QualificationState
  observations : List StringsObservation
  assessments : List Assessment
  errors : List String
  deriving DecidableEq

/-- The observations of one value. -/
def itemObservations (item : Encoding × PyStr) : List StringsObservation :=
  [⟨"strings.encoding", .encoding item.1.name⟩, ⟨"strings.value", .item item.1 item.2⟩]

def truncatedAssessment : Assessment where
  assessmentType := "STRING_OUTPUT_TRUNCATED"
  statement := "bounded string output or source scan was truncated"
  confidence := "HIGH"
  evidenceRefs := ["strings.truncated"]

/-- The result for a source that could be read. -/
def report (state : Collected Encoding (Fin 0x110000)) : StringsResult where
  nativeStatus := "complete"
  qualificationState := .qualified
  observations :=
    [⟨"strings.count_observed", .count state.observed⟩,
      ⟨"strings.count_returned", .count state.values.length⟩,
      ⟨"strings.truncated", .flag state.sourceTruncated⟩] ++ state.values.flatMap itemObservations
  assessments := if state.sourceTruncated then [truncatedAssessment] else []
  errors := []

/-- The result for a source that could not be read. -/
def readError (exc : Exc) : StringsResult where
  nativeStatus := "error"
  qualificationState := .degraded
  observations := []
  assessments := []
  errors := [s!"read-error: {exc.text}"]

/-- The part of a source that is scanned. -/
def scanned (content : Bytes) : Bytes :=
  (content.take (self.maximumSource + 1)).take self.maximumSource

/-- Whether there is more than that. -/
def exceeds (content : Bytes) : Bool :=
  decide ((content.take (self.maximumSource + 1)).length > self.maximumSource)

/-- `analyze`. -/
def analyze (source : Except Exc Bytes) : Except Exc StringsResult :=
  match source with
  | .error exc => if exc.family = .osError then .ok (readError exc) else .error exc
  | .ok content =>
      .ok (report (self.collect (self.exceeds content) (found (self.scanned content))))

/-- The values that a result returns. -/
def StringsResult.values (result : StringsResult) : List (Encoding × PyStr) :=
  result.observations.filterMap fun observation =>
    match observation.value with
    | .item encoding value => some (encoding, value)
    | _ => none

/-- What a result says about the limits. -/
def StringsResult.truncated (result : StringsResult) : Option Bool :=
  (result.observations.find? fun observation =>
    observation.observationType = "strings.truncated").bind fun observation =>
      match observation.value with
      | .flag value => some value
      | _ => none

@[simp] lemma report_values (state : Collected Encoding (Fin 0x110000)) :
    (report state).values = state.values := by
  have hitem (items : List (Encoding × PyStr)) :
      StringsResult.values { report state with observations := items.flatMap itemObservations } =
        items := by
    induction items with
    | nil => rfl
    | cons item items ih => exact congrArg (item :: ·) ih
  exact hitem state.values

@[simp] lemma report_truncated (state : Collected Encoding (Fin 0x110000)) :
    (report state).truncated = some state.sourceTruncated := rfl

/-! ## What the loop keeps -/

variable {self} {state : Collected κ α} {items : List (κ × List α)} {item : κ × List α}

/-- The limits on the number of values and of characters leave room for an item. -/
def Room (self : StringsAnalyzer) (state : Collected κ α) (item : κ × List α) : Prop :=
  state.values.length < self.maximumCount ∧
    state.total + (self.cut item.2).length ≤ self.maximumTotal

instance : Decidable (Room self state item) := inferInstanceAs (Decidable (_ ∧ _))

lemma collectOne_of_room (h : Room self state item) :
    self.collectOne state item =
      { values := state.values ++ [(item.1, self.cut item.2)]
        observed := state.observed + 1
        sourceTruncated := state.sourceTruncated || decide (item.2.length > self.maximum) } := by
  rw [collectOne, if_neg (not_le.2 h.1)]
  exact if_neg (not_lt.2 h.2)

lemma collectOne_of_not_room (h : ¬Room self state item) :
    self.collectOne state item =
      { values := state.values, observed := state.observed + 1, sourceTruncated := true } := by
  rw [collectOne]
  by_cases hcount : state.values.length ≥ self.maximumCount
  · exact if_pos hcount
  · rw [if_neg hcount]
    exact if_pos (not_le.1 fun htotal => h ⟨not_le.1 hcount, htotal⟩)

lemma collect_nil (sourceTruncated : Bool) :
    self.collect sourceTruncated ([] : List (κ × List α)) = ⟨[], 0, sourceTruncated⟩ := rfl

lemma collect_concat (sourceTruncated : Bool) :
    self.collect sourceTruncated (items ++ [item]) =
      self.collectOne (self.collect sourceTruncated items) item := by
  simp [collect]

/-- An item of a longer list stands in the list before, or is the last one. -/
lemma split_concat_iff {ι : Type} {P : List ι → ι → Prop} {items : List ι} {last : ι} :
    (∃ before item after, items ++ [last] = before ++ item :: after ∧ P before item) ↔
      (∃ before item after, items = before ++ item :: after ∧ P before item) ∨ P items last := by
  constructor
  · rintro ⟨before, item, after, heq, h⟩
    rcases List.eq_nil_or_concat after with rfl | ⟨after, other, rfl⟩
    · obtain ⟨rfl, hlast⟩ := List.append_inj' heq rfl
      exact Or.inr (by rwa [List.singleton_inj.1 hlast])
    · have hconcat : items ++ [last] = (before ++ item :: after) ++ [other] := by
        rw [heq]
        simp
      exact Or.inl ⟨before, item, after, (List.append_inj' hconcat rfl).1, h⟩
  · rintro (⟨before, item, after, rfl, h⟩ | h)
    · exact ⟨before, item, after ++ [last], by simp, h⟩
    · exact ⟨items, last, [], rfl, h⟩

/-- A value is returned for the items that there is room for. -/
theorem mem_collect_iff {sourceTruncated : Bool} {value : κ × List α} :
    value ∈ (self.collect sourceTruncated items).values ↔ ∃ before item after,
      items = before ++ item :: after ∧ Room self (self.collect sourceTruncated before) item ∧
        value = (item.1, self.cut item.2) := by
  induction items using List.reverseRecOn with
  | nil => simp [collect_nil]
  | append_singleton items last ih =>
      rw [split_concat_iff, ← ih, collect_concat]
      by_cases hroom : Room self (self.collect sourceTruncated items) last
      · rw [collectOne_of_room hroom]
        simp [hroom]
      · rw [collectOne_of_not_room hroom]
        simp [hroom]

/-- The limits hold of what is returned. -/
structure Within (limits : StringsAnalyzer) (state : Collected κ α) : Prop where
  count : state.values.length ≤ limits.maximumCount
  total : state.total ≤ limits.maximumTotal
  length : ∀ value ∈ state.values, value.2.length ≤ limits.maximum

lemma length_cut_le (value : List α) : (self.cut value).length ≤ self.maximum := by
  rw [cut]
  split_ifs with h
  · exact List.length_take_le _ _
  · exact not_lt.1 h

lemma Within.collectOne (h : Within self state) : Within self (self.collectOne state item) := by
  by_cases hroom : Room self state item
  · have htotal := hroom.2
    rw [collectOne_of_room hroom]
    refine ⟨?_, ?_, fun value hvalue => ?_⟩
    · rw [List.length_append, List.length_singleton]
      exact hroom.1
    · simpa [Collected.total] using htotal
    · rcases List.mem_append.1 hvalue with hold | hnew
      · exact h.length value hold
      · rw [List.mem_singleton.1 hnew]
        exact length_cut_le item.2
  · rw [collectOne_of_not_room hroom]
    exact ⟨h.count, h.total, h.length⟩

theorem collect_within (sourceTruncated : Bool) (items : List (κ × List α)) :
    Within self (self.collect sourceTruncated items) := by
  induction items using List.reverseRecOn with
  | nil => exact ⟨Nat.zero_le _, Nat.zero_le _, fun _ h => absurd h List.not_mem_nil⟩
  | append_singleton items item ih =>
      rw [collect_concat]
      exact ih.collectOne

/-- When nothing is reported as truncated, everything is returned uncut. -/
theorem collect_complete {sourceTruncated : Bool}
    (h : (self.collect sourceTruncated items).sourceTruncated = false) :
    sourceTruncated = false ∧ (self.collect sourceTruncated items).values = items := by
  induction items using List.reverseRecOn with
  | nil => exact ⟨h, rfl⟩
  | append_singleton items item ih =>
      rw [collect_concat] at h ⊢
      by_cases hroom : Room self (self.collect sourceTruncated items) item
      · rw [collectOne_of_room hroom] at h ⊢
        obtain ⟨hbefore, hshort⟩ := Bool.or_eq_false_iff.1 h
        obtain ⟨hsource, hvalues⟩ := ih hbefore
        exact ⟨hsource, by rw [hvalues, cut, if_neg (of_decide_eq_false hshort)]⟩
      · rw [collectOne_of_not_room hroom] at h
        cases h

/-- The variables of a loop over relabelled items. -/
def Collected.map {ι : Type} (key : κ → ι) (f : α → β) (state : Collected κ α) :
    Collected ι β where
  values := state.values.map (Prod.map key (List.map f))
  observed := state.observed
  sourceTruncated := state.sourceTruncated

lemma cut_map (f : α → β) (value : List α) : self.cut (value.map f) = (self.cut value).map f := by
  by_cases h : value.length > self.maximum
  · simp [cut, h, List.map_take]
  · simp [cut, h]

lemma room_map {ι : Type} (key : κ → ι) (f : α → β) :
    Room self (state.map key f) (Prod.map key (List.map f) item) ↔ Room self state item := by
  simp [Room, Collected.map, Collected.total, cut_map, Function.comp_def]

/-- Relabelled items are treated alike. -/
theorem collect_map {ι : Type} (key : κ → ι) (f : α → β) (sourceTruncated : Bool)
    (items : List (κ × List α)) :
    self.collect sourceTruncated (items.map (Prod.map key (List.map f))) =
      (self.collect sourceTruncated items).map key f := by
  induction items using List.reverseRecOn with
  | nil => rfl
  | append_singleton items item ih =>
      rw [List.map_append, List.map_singleton, collect_concat, collect_concat, ih]
      by_cases hroom : Room self (self.collect sourceTruncated items) item
      · rw [collectOne_of_room hroom, collectOne_of_room ((room_map key f).2 hroom)]
        simp [Collected.map, cut_map]
      · rw [collectOne_of_not_room hroom, collectOne_of_not_room fun h =>
          hroom ((room_map key f).1 h)]
        rfl

end StringsAnalyzer

end AVBox
