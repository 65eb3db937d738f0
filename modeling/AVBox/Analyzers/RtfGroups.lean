import AVBox.Analyzers.Document
import AVBox.Lib.Text
import Mathlib.Data.Nat.Digits.Lemmas

/-!
# Groups and binary data in RTF

The scan over the groups of `_parse_rtf` (`rtfLoop`, `rtfGroups`) against one that skips the data of
`\binN` (`groupsSkippingBinary`).  The counter of binary data is never set, so the parser reads
binary data as text.  `skips_binary_iff` says which data it may read so without a difference: what
holds no brace but escaped ones, and does not end in the middle of an escape (`Inert`).
-/

namespace AVBox

open Binary

namespace Document

/-! ## The loop -/

/-- The variables of the loop over the bytes. -/
structure RtfLoop where
  depth : ℤ
  maximum : ℤ
  escaped : Bool
  binaryRemaining : ℕ

/-- The loop over the bytes, and the anomaly that it or what follows it finds. -/
def rtfLoop (limits : DocumentLimits) : RtfLoop → Bytes → ℤ × Option String
  | state, [] => (state.maximum, if state.depth ≠ 0 then some "RTF unbalanced groups" else none)
  | state, byte :: data =>
      if state.binaryRemaining ≠ 0 then
        rtfLoop limits { state with binaryRemaining := state.binaryRemaining - 1 } data
      else if state.escaped then rtfLoop limits { state with escaped := false } data
      else if byte.toNat = 0x5C then rtfLoop limits { state with escaped := true } data
      else if byte.toNat = 0x7B then
        let depth := state.depth + 1
        let maximum := max state.maximum depth
        if maximum > limits.maxRtfGroupDepth then (maximum, some "RTF nesting limit exceeded")
        else rtfLoop limits { state with depth := depth, maximum := maximum } data
      else if byte.toNat = 0x7D then
        let depth := state.depth - 1
        if depth < 0 then (state.maximum, some "RTF unmatched closing group")
        else rtfLoop limits { state with depth := depth } data
      else rtfLoop limits state data

/-- Nothing sets the counter of binary data, and so it has no part in the loop. -/
lemma rtfLoop_eq (limits : DocumentLimits) (data : Bytes) (depth maximum : ℕ) (escaped : Bool) :
    rtfLoop limits ⟨depth, maximum, escaped, 0⟩ data =
      (((rtfGroups limits escaped depth maximum data).1 : ℤ),
        (rtfGroups limits escaped depth maximum data).2) := by
  induction data generalizing depth maximum escaped with
  | nil => simp [rtfLoop, rtfGroups]
  | cons byte data ih =>
      rw [rtfLoop, if_neg (not_not.2 rfl)]
      cases escaped with
      | true => exact ih depth maximum false
      | false =>
          rw [if_neg Bool.false_ne_true, rtfGroups.eq_def]
          dsimp only
          have hmax : max (maximum : ℤ) ((depth : ℤ) + 1) = (max maximum (depth + 1) : ℕ) := by
            push_cast
            rfl
          rw [hmax]
          split
          · exact ih depth maximum true
          split
          · by_cases hlimit : max maximum (depth + 1) > limits.maxRtfGroupDepth
            · rw [if_pos hlimit, if_pos (by exact_mod_cast hlimit)]
            · rw [if_neg hlimit, if_neg (by exact_mod_cast hlimit)]
              exact ih (depth + 1) (max maximum (depth + 1)) false
          split
          · rcases depth with _ | depth
            · rfl
            · rw [if_neg (by push_cast; omega)]
              have hdepth : ((depth + 1 : ℕ) : ℤ) - 1 = depth := by push_cast; omega
              rw [hdepth]
              exact ih depth maximum false
          · exact ih depth maximum false

/-! ## Braces -/

inductive Brace
  | opening
  | closing
  deriving DecidableEq

/-- The largest depth and the anomaly of some braces. -/
def account (limit : ℕ) : ℕ → ℕ → List Brace → ℕ × Option String
  | depth, maximum, [] =>
      (maximum, if depth ≠ 0 then some "RTF unbalanced groups" else none)
  | depth, maximum, .opening :: braces =>
      if max maximum (depth + 1) > limit then
        (max maximum (depth + 1), some "RTF nesting limit exceeded")
      else account limit (depth + 1) (max maximum (depth + 1)) braces
  | 0, maximum, .closing :: _ => (maximum, some "RTF unmatched closing group")
  | depth + 1, maximum, .closing :: braces => account limit depth maximum braces

/-- The braces outside escapes, in binary data as well. -/
def unescapedBraces : Bool → Bytes → List Brace
  | _, [] => []
  | true, _ :: data => unescapedBraces false data
  | false, byte :: data =>
      if byte.toNat = 0x5C then unescapedBraces true data
      else if byte.toNat = 0x7B then .opening :: unescapedBraces false data
      else if byte.toNat = 0x7D then .closing :: unescapedBraces false data
      else unescapedBraces false data

/-- Whether the next byte is escaped. -/
def escapedAfter : Bool → Bytes → Bool
  | escaped, [] => escaped
  | true, _ :: data => escapedAfter false data
  | false, byte :: data => escapedAfter (decide (byte.toNat = 0x5C)) data

/-- The parser accounts for the braces outside escapes. -/
lemma rtfGroups_eq (limits : DocumentLimits) (escaped : Bool) (depth maximum : ℕ) (data : Bytes) :
    rtfGroups limits escaped depth maximum data =
      account limits.maxRtfGroupDepth depth maximum (unescapedBraces escaped data) := by
  induction data generalizing escaped depth maximum with
  | nil => cases escaped <;> rfl
  | cons byte data ih =>
      cases escaped with
      | true => exact ih false depth maximum
      | false =>
          rw [rtfGroups.eq_def, unescapedBraces]
          dsimp only
          split
          · exact ih true depth maximum
          split
          · rw [account, ih false]
          split
          · rcases depth with _ | depth
            · rfl
            · exact ih false depth maximum
          · exact ih false depth maximum

lemma unescapedBraces_append (escaped : Bool) (first rest : Bytes) :
    unescapedBraces escaped (first ++ rest) =
      unescapedBraces escaped first ++ unescapedBraces (escapedAfter escaped first) rest := by
  induction first generalizing escaped with
  | nil => cases escaped <;> rfl
  | cons byte first ih =>
      cases escaped with
      | true => exact ih false
      | false =>
          rw [List.cons_append, unescapedBraces, unescapedBraces, escapedAfter]
          split
          · next hbyte => rw [ih true, decide_eq_true hbyte]
          · next hbyte =>
              rw [decide_eq_false hbyte, ih false]
              split
              · rfl
              split <;> rfl

/-- A byte that the scan passes over. -/
def IsPlain (byte : UInt8) : Prop :=
  byte.toNat ≠ 0x5C ∧ byte.toNat ≠ 0x7B ∧ byte.toNat ≠ 0x7D

lemma unescapedBraces_plain {data : Bytes} (h : ∀ byte ∈ data, IsPlain byte) :
    unescapedBraces false data = [] ∧ escapedAfter false data = false := by
  induction data with
  | nil => exact ⟨rfl, rfl⟩
  | cons byte data ih =>
      obtain ⟨⟨hescape, hopening, hclosing⟩, hdata⟩ := List.forall_mem_cons.1 h
      rw [unescapedBraces, if_neg hescape, if_neg hopening, if_neg hclosing, escapedAfter,
        decide_eq_false hescape]
      exact ih hdata

/-! ## Binary data -/

/-- `[A-Za-z]` -/
def isLetter (byte : UInt8) : Bool :=
  let c := byte.toNat
  (0x41 ≤ c && c ≤ 0x5A) || (0x61 ≤ c && c ≤ 0x7A)

/-- A number in decimal digits. -/
def number (digits : Bytes) : ℕ :=
  digits.foldl (fun value digit => value * 10 + (digit.toNat - 0x30)) 0

/-- The control word `\binN` behind its backslash: the bytes it takes up with its delimiter, which
is a space, and the bytes of binary data that follow. -/
def binaryRun (rest : Bytes) : Option (ℕ × ℕ) :=
  let word := rest.takeWhile isLetter
  let digits := (rest.drop word.length).takeWhile Regex.isDigit
  if word = ascii "bin" ∧ digits ≠ [] then
    let behind := rest.drop (word.length + digits.length)
    some (word.length + digits.length + (if behind.head? = some 0x20 then 1 else 0), number digits)
  else none

/-- The braces outside escapes and binary data, `skip` bytes further on. -/
def groupBraces : ℕ → Bytes → List Brace
  | _, [] => []
  | skip + 1, _ :: data => groupBraces skip data
  | 0, byte :: data =>
      if byte.toNat = 0x5C then
        match binaryRun data with
        | some (header, count) => groupBraces (header + count) data
        | none => groupBraces 1 data
      else if byte.toNat = 0x7B then .opening :: groupBraces 0 data
      else if byte.toNat = 0x7D then .closing :: groupBraces 0 data
      else groupBraces 0 data

/-- The binary data of a document, `skip` bytes further on. -/
def binaryRuns : ℕ → Bytes → List Bytes
  | _, [] => []
  | skip + 1, _ :: data => binaryRuns skip data
  | 0, byte :: data =>
      if byte.toNat = 0x5C then
        match binaryRun data with
        | some (header, count) =>
            (data.drop header).take count :: binaryRuns (header + count) data
        | none => binaryRuns 1 data
      else binaryRuns 0 data

/-- The largest depth and the anomaly of the groups of a document. -/
def groupsSkippingBinary (limits : DocumentLimits) (data : Bytes) : ℕ × Option String :=
  account limits.maxRtfGroupDepth 0 0 (groupBraces 0 data)

/-- Data that makes no difference when it is read as text. -/
structure Inert (content : Bytes) : Prop where
  braces : unescapedBraces false content = []
  escape : escapedAfter false content = false

lemma groupBraces_skip (skip : ℕ) (data : Bytes) :
    groupBraces skip data = groupBraces 0 (data.drop skip) := by
  induction skip generalizing data with
  | zero => rfl
  | succ skip ih =>
      cases data with
      | nil => rfl
      | cons byte data => exact ih data

lemma binaryRuns_skip (skip : ℕ) (data : Bytes) :
    binaryRuns skip data = binaryRuns 0 (data.drop skip) := by
  induction skip generalizing data with
  | zero => rfl
  | succ skip ih =>
      cases data with
      | nil => rfl
      | cons byte data => exact ih data

/-- A control word `\binN` holds nothing that the scan stops at. -/
lemma plain_of_binaryRun {data : Bytes} {header count : ℕ}
    (h : binaryRun data = some (header, count)) :
    data.take header ≠ [] ∧ ∀ byte ∈ data.take header, IsPlain byte := by
  rw [binaryRun] at h
  set word := data.takeWhile isLetter with hword
  set digits := (data.drop word.length).takeWhile Regex.isDigit with hdigits
  dsimp only at h
  split at h
  next hbin =>
    obtain ⟨rfl, -⟩ := Prod.mk.inj (Option.some.inj h)
    have hwordTake : data.take word.length = word :=
      (List.prefix_iff_eq_take.1 (List.takeWhile_prefix isLetter)).symm
    have hdigitsTake : (data.drop word.length).take digits.length = digits :=
      (List.prefix_iff_eq_take.1 (List.takeWhile_prefix Regex.isDigit)).symm
    rw [List.take_add, List.take_add, hwordTake, hdigitsTake]
    refine ⟨by simp [hbin.1, ascii], fun byte hbyte => ?_⟩
    rcases List.mem_append.1 hbyte with hbyte | hbyte
    · rcases List.mem_append.1 hbyte with hbyte | hbyte
      · have hletter := List.all_eq_true.1 List.all_takeWhile _ hbyte
        simp only [isLetter, Bool.or_eq_true, Bool.and_eq_true, decide_eq_true_eq] at hletter
        exact ⟨by omega, by omega, by omega⟩
      · have hdigit := List.all_eq_true.1 List.all_takeWhile _ hbyte
        simp only [Regex.isDigit, Bool.and_eq_true, decide_eq_true_eq] at hdigit
        exact ⟨by omega, by omega, by omega⟩
    · -- The delimiter is a space or absent.
      split at hbyte
      · next hspace =>
          rcases hrest : data.drop (word.length + digits.length) with _ | ⟨space, rest⟩
          · simp [hrest] at hbyte
          · rw [hrest] at hspace hbyte
            obtain rfl : byte = 0x20 := by simpa using
              (List.mem_singleton.1 hbyte).trans (Option.some.inj hspace)
            exact ⟨by decide, by decide, by decide⟩
      · simp at hbyte
  next => cases h

lemma unescapedBraces_header {data : Bytes} {header count : ℕ}
    (h : binaryRun data = some (header, count)) :
    unescapedBraces true (data.take header) = [] ∧
      escapedAfter true (data.take header) = false := by
  obtain ⟨hne, hplain⟩ := plain_of_binaryRun h
  rcases hheader : data.take header with _ | ⟨byte, bytes⟩
  · exact absurd hheader hne
  · rw [hheader] at hplain
    exact unescapedBraces_plain fun byte hbyte => hplain byte (List.mem_cons_of_mem _ hbyte)

/-- Inert binary data makes no difference. -/
lemma unescapedBraces_of_inert {data : Bytes} (h : ∀ run ∈ binaryRuns 0 data, Inert run) :
    unescapedBraces false data = groupBraces 0 data := by
  induction hlength : data.length using Nat.strong_induction_on generalizing data with
  | _ length ih =>
      rcases data with _ | ⟨byte, data⟩
      · rfl
      rw [unescapedBraces, groupBraces]
      rw [binaryRuns] at h
      rw [List.length_cons] at hlength
      split
      · next hbyte =>
          rw [if_pos hbyte] at h
          rcases hrun : binaryRun data with _ | ⟨header, count⟩
          · rw [hrun] at h
            rcases data with _ | ⟨next, data⟩
            · rfl
            · exact ih data.length (by rw [List.length_cons] at hlength; omega) h rfl
          · rw [hrun] at h
            obtain ⟨hinert, hruns⟩ := List.forall_mem_cons.1 h
            obtain ⟨hheader, hescaped⟩ := unescapedBraces_header hrun
            have hsplit : data = data.take header ++ ((data.drop header).take count ++
                data.drop (header + count)) := by
              rw [← List.drop_drop, List.take_append_drop, List.take_append_drop]
            have hrest : unescapedBraces false (data.drop (header + count)) =
                groupBraces 0 (data.drop (header + count)) := by
              rw [binaryRuns_skip] at hruns
              exact ih _ (by rw [List.length_drop]; omega) hruns rfl
            calc unescapedBraces true data
                = unescapedBraces true (data.take header ++ ((data.drop header).take count ++
                    data.drop (header + count))) := congrArg _ hsplit
              _ = unescapedBraces false (data.drop (header + count)) := by
                  rw [unescapedBraces_append, hheader, hescaped, List.nil_append,
                    unescapedBraces_append, hinert.braces, hinert.escape, List.nil_append]
              _ = groupBraces (header + count) data := by rw [hrest, ← groupBraces_skip]
      · next hbyte =>
          rw [if_neg hbyte] at h
          have hrest := ih data.length (by omega) h rfl
          rw [hrest]

/-! ## Documents with one run of binary data -/

/-- A number as it is printed. -/
def decimal (n : ℕ) : Bytes :=
  (Nat.toDigits 10 n).map fun digit => UInt8.ofNat digit.toNat

lemma toNat_ofNat_digit {digit : Char} (h : digit.toNat ≤ 0x39) :
    (UInt8.ofNat digit.toNat).toNat = digit.toNat := by
  rw [UInt8.toNat_ofNat']
  omega

lemma number_decimal (n : ℕ) : number (decimal n) = n :=
  Text.foldl_toDigits (fun digit hdigit => by rw [toNat_ofNat_digit hdigit]) n

lemma isDigit_of_mem_decimal {n : ℕ} {byte : UInt8} (h : byte ∈ decimal n) :
    Regex.isDigit byte ∧ isLetter byte = false := by
  obtain ⟨digit, hdigit, rfl⟩ := List.mem_map.1 h
  obtain ⟨hlow, hhigh⟩ := Text.toNat_of_mem_toDigits hdigit
  simp only [Regex.isDigit, isLetter, toNat_ofNat_digit hhigh, Bool.and_eq_true,
    decide_eq_true_eq, Bool.or_eq_false_iff, Bool.and_eq_false_iff, decide_eq_false_iff_not]
  omega

/-- The control word `\binN`, its delimiter and the binary data. -/
def binary (content : Bytes) : Bytes :=
  0x5C :: (ascii "bin" ++ (decimal content.length ++ [0x20])) ++ content

lemma takeWhile_append_cons {α : Type*} {p : α → Bool} {first rest : List α} {x : α}
    (hfirst : ∀ y ∈ first, p y) (hx : p x = false) :
    (first ++ x :: rest).takeWhile p = first := by
  rw [List.takeWhile_append_of_pos hfirst, List.takeWhile_cons_of_neg (by simp [hx]),
    List.append_nil]

lemma binaryRun_printed (n : ℕ) (rest : Bytes) :
    binaryRun (ascii "bin" ++ (decimal n ++ [0x20]) ++ rest) =
      some ((ascii "bin" ++ (decimal n ++ [0x20])).length, n) := by
  have hne : decimal n ≠ [] := by
    rw [decimal, Ne, List.map_eq_nil_iff]
    exact Nat.toDigits_ne_nil
  have hword : (ascii "bin" ++ (decimal n ++ [0x20]) ++ rest).takeWhile isLetter = ascii "bin" := by
    rcases hdecimal : decimal n with _ | ⟨digit, digits⟩
    · exact absurd hdecimal hne
    · rw [List.append_assoc, List.cons_append, List.cons_append]
      have hdigit : digit ∈ decimal n := hdecimal ▸ List.mem_cons_self ..
      exact takeWhile_append_cons (List.all_eq_true.1 (by decide)) (isDigit_of_mem_decimal hdigit).2
  have hdrop : (ascii "bin" ++ (decimal n ++ [0x20]) ++ rest).drop (ascii "bin").length =
      decimal n ++ 0x20 :: rest := by
    rw [List.append_assoc, List.drop_left, List.append_assoc, List.singleton_append]
  have hdigits : (decimal n ++ 0x20 :: rest).takeWhile Regex.isDigit = decimal n :=
    takeWhile_append_cons (fun byte hbyte => (isDigit_of_mem_decimal hbyte).1) (by decide)
  rw [binaryRun]
  dsimp only
  rw [hword, hdrop, hdigits, if_pos ⟨rfl, hne⟩, ← List.drop_drop, hdrop, List.drop_left,
    number_decimal]
  simp [Nat.add_assoc]

lemma scans_binary (content rest : Bytes) :
    groupBraces 0 (binary content ++ rest) = groupBraces 0 rest ∧
      binaryRuns 0 (binary content ++ rest) = content :: binaryRuns 0 rest ∧
      unescapedBraces false (binary content ++ rest) =
        unescapedBraces false content ++ unescapedBraces (escapedAfter false content) rest := by
  set header := ascii "bin" ++ (decimal content.length ++ [0x20]) with hheader
  have hbinary : binary content ++ rest = 0x5C :: (header ++ (content ++ rest)) := by
    rw [binary, List.cons_append, List.cons_append, List.append_assoc]
  have hrun : binaryRun (header ++ (content ++ rest)) = some (header.length, content.length) :=
    binaryRun_printed content.length (content ++ rest)
  have hrest : (header ++ (content ++ rest)).drop (header.length + content.length) = rest := by
    rw [← List.drop_drop, List.drop_left, List.drop_left]
  obtain ⟨hbraces, hescaped⟩ := unescapedBraces_header hrun
  rw [List.take_left] at hbraces hescaped
  rw [hbinary]
  refine ⟨?_, ?_, ?_⟩
  · rw [groupBraces, if_pos (by decide), hrun]
    dsimp only
    rw [groupBraces_skip, hrest]
  · rw [binaryRuns, if_pos (by decide), hrun]
    dsimp only
    rw [binaryRuns_skip, hrest, List.drop_left, List.take_left]
  · rw [unescapedBraces, if_pos (by decide), unescapedBraces_append, hbraces, hescaped,
      List.nil_append, unescapedBraces_append]

/-- A document whose only group holds binary data. -/
def within (content : Bytes) : Bytes :=
  ascii "\x7b\\rtf1" ++ (binary content ++ ascii "\x7d")

/-- A document with binary data behind its only group. -/
def behind (content : Bytes) : Bytes :=
  ascii "\x7b\\rtf1\x7d" ++ (binary content ++ [])

lemma isSome_matchStart_within (content : Bytes) :
    (Regex.matchStart rtfSignature (within content)).isSome := rfl

lemma isSome_matchStart_behind (content : Bytes) :
    (Regex.matchStart rtfSignature (behind content)).isSome := rfl

lemma scans_within (content : Bytes) :
    groupBraces 0 (within content) = [.opening, .closing] ∧
      binaryRuns 0 (within content) = [content] ∧
      unescapedBraces false (within content) = .opening :: (unescapedBraces false content ++
        unescapedBraces (escapedAfter false content) (ascii "\x7d")) := by
  obtain ⟨hgroups, hruns, hbraces⟩ := scans_binary content (ascii "\x7d")
  exact ⟨congrArg (Brace.opening :: ·) hgroups, hruns, congrArg (Brace.opening :: ·) hbraces⟩

lemma scans_behind (content : Bytes) :
    groupBraces 0 (behind content) = [.opening, .closing] ∧
      binaryRuns 0 (behind content) = [content] ∧
      unescapedBraces false (behind content) =
        .opening :: .closing :: (unescapedBraces false content ++
          unescapedBraces (escapedAfter false content) []) := by
  obtain ⟨hgroups, hruns, hbraces⟩ := scans_binary content []
  exact ⟨congrArg (Brace.opening :: Brace.closing :: ·) hgroups, hruns,
    congrArg (Brace.opening :: Brace.closing :: ·) hbraces⟩

/-! ## When binary data may be read as text -/

lemma le_account (limit depth maximum : ℕ) (braces : List Brace) :
    maximum ≤ (account limit depth maximum braces).1 := by
  induction braces generalizing depth maximum with
  | nil => rw [account]
  | cons brace braces ih =>
      cases brace with
      | opening =>
          rw [account]
          split
          · exact le_max_left ..
          · exact (le_max_left ..).trans (ih ..)
      | closing =>
          rcases depth with _ | depth
          · rfl
          · exact ih depth maximum

section Sharp

variable {limits : DocumentLimits} (hlimit : 1 ≤ limits.maxRtfGroupDepth)

include hlimit

lemma account_opening (braces : List Brace) :
    account limits.maxRtfGroupDepth 0 0 (.opening :: braces) =
      account limits.maxRtfGroupDepth 1 1 braces := by
  have hmax : ¬ max 0 (0 + 1) > limits.maxRtfGroupDepth := not_lt.2 hlimit
  rw [account, if_neg hmax]
  rfl

lemma account_group : account limits.maxRtfGroupDepth 0 0 [.opening, .closing] = (1, none) := by
  rw [account_opening hlimit]
  rfl

/-- A second group inside makes the group deeper. -/
lemma account_opening_opening (braces : List Brace) :
    account limits.maxRtfGroupDepth 0 0 (.opening :: .opening :: braces) ≠ (1, none) := by
  rw [account_opening hlimit, account]
  intro h
  split at h
  · cases h
  · have hle := le_account limits.maxRtfGroupDepth (1 + 1) (max 1 (1 + 1)) braces
    rw [h] at hle
    exact absurd hle (by decide)

/-- Data that is not inert makes a difference in a document of one group. -/
lemma exists_difference {content : Bytes} (h : ¬ Inert content) :
    ∃ data, (Regex.matchStart rtfSignature data).isSome ∧ binaryRuns 0 data = [content] ∧
      rtfGroups limits false 0 0 data ≠ groupsSkippingBinary limits data := by
  obtain ⟨hgroups, hruns, hbraces⟩ := scans_within content
  obtain ⟨hgroups', hruns', hbraces'⟩ := scans_behind content
  rcases hcontent : unescapedBraces false content with _ | ⟨brace, braces⟩
  · -- The data ends in the middle of an escape, and the closing brace is lost.
    have hescaped : escapedAfter false content = true := by
      by_contra hescaped
      exact h ⟨hcontent, Bool.eq_false_iff.2 hescaped⟩
    refine ⟨within content, isSome_matchStart_within content, hruns, ?_⟩
    rw [rtfGroups_eq, groupsSkippingBinary, hgroups, account_group hlimit, hbraces, hcontent,
      hescaped, account_opening hlimit]
    simp [ascii, unescapedBraces, account]
  · cases brace with
    | opening =>
        refine ⟨within content, isSome_matchStart_within content, hruns, ?_⟩
        rw [rtfGroups_eq, groupsSkippingBinary, hgroups, account_group hlimit, hbraces, hcontent]
        exact account_opening_opening hlimit _
    | closing =>
        refine ⟨behind content, isSome_matchStart_behind content, hruns', ?_⟩
        rw [rtfGroups_eq, groupsSkippingBinary, hgroups', account_group hlimit, hbraces', hcontent,
          account_opening hlimit]
        simp [account]

end Sharp

/-- What binary data must hold for the parser to account for the groups as if it skipped it: no
brace outside escapes, and no escape that goes on behind it. -/
theorem skips_binary_iff (limits : DocumentLimits) (hlimit : 1 ≤ limits.maxRtfGroupDepth)
    (Admits : Bytes → Prop) :
    (∀ data, (Regex.matchStart rtfSignature data).isSome →
        (∀ run ∈ binaryRuns 0 data, Admits run) →
          rtfLoop limits ⟨0, 0, false, 0⟩ data =
            (((groupsSkippingBinary limits data).1 : ℤ), (groupsSkippingBinary limits data).2)) ↔
      ∀ content, Admits content → Inert content := by
  have hloop : ∀ data, rtfLoop limits ⟨0, 0, false, 0⟩ data =
      (((groupsSkippingBinary limits data).1 : ℤ), (groupsSkippingBinary limits data).2) ↔
        rtfGroups limits false 0 0 data = groupsSkippingBinary limits data := by
    intro data
    have heq := rtfLoop_eq limits data 0 0 false
    rw [Nat.cast_zero] at heq
    rw [heq, Prod.mk.injEq, Nat.cast_inj, ← Prod.ext_iff]
  simp only [hloop]
  constructor
  · intro h content hcontent
    by_contra hinert
    obtain ⟨data, hsignature, hruns, hne⟩ := exists_difference hlimit hinert
    refine hne (h data hsignature fun run hrun => ?_)
    rw [hruns, List.mem_singleton] at hrun
    rwa [hrun]
  · intro h data _ hruns
    rw [rtfGroups_eq, groupsSkippingBinary,
      unescapedBraces_of_inert fun run hrun => h run (hruns run hrun)]

/-- A document with binary data of plain bytes. -/
theorem plain_binary_skipped :
    let data := ascii "\x7b\\rtf1\\bin3 abc\x7bb\x7d\x7d"
    binaryRuns 0 data = [ascii "abc"] ∧ rtfLoop DocumentLimits.default ⟨0, 0, false, 0⟩ data =
      (((groupsSkippingBinary DocumentLimits.default data).1 : ℤ),
        (groupsSkippingBinary DocumentLimits.default data).2) := by
  intro data
  have hruns : binaryRuns 0 data = [ascii "abc"] := by decide +kernel
  have hplain : ∀ byte ∈ ascii "abc", IsPlain byte := by
    unfold IsPlain
    decide +kernel
  refine ⟨hruns, (skips_binary_iff DocumentLimits.default (by decide)
    fun content => ∀ byte ∈ content, IsPlain byte).2 (fun content hcontent => ?_) data
    (by decide +kernel) fun run hrun => ?_⟩
  · obtain ⟨hbraces, hafter⟩ := unescapedBraces_plain hcontent
    exact ⟨hbraces, hafter⟩
  · rw [hruns, List.mem_singleton] at hrun
    exact hrun ▸ hplain

/-- In `{\rtf1\bin1 {}` the brace that is the binary data leaves the group open. -/
theorem binary_brace_unbalanced :
    let data := ascii "\x7b\\rtf1\\bin1 \x7b\x7d"
    (Regex.matchStart rtfSignature data).isSome ∧
      groupsSkippingBinary DocumentLimits.default data = (1, none) ∧
      rtfLoop DocumentLimits.default ⟨0, 0, false, 0⟩ data = (2, some "RTF unbalanced groups") := by
  decide +kernel

end Document

end AVBox
