import AVBox.Application.Scanning
import AVBox.Lib.Fallible

/-!
# What a detector run comes to

`normalize` of the five file adapters of `scanners/adapters.py`: the exit code, the flags and the
output of a detector become a verdict.  What building the result reads besides, the stored raw
output, the probe and the detector's definitions, is an outcome of the environment.
-/

namespace AVBox

namespace PyStr

/-- A character at which `splitlines` ends a line. -/
def isLineBreak (c : Fin 0x110000) : Bool :=
  decide (c.val ∈ [0x0A, 0x0B, 0x0C, 0x0D, 0x1C, 0x1D, 0x1E, 0x85, 0x2028, 0x2029])

/-- The lines of a text, given the beginning of the first one and whether a carriage return stands
before it. -/
def linesFrom : Bool → PyStr → PyStr → List PyStr
  | _, line, [] => if line = [] then [] else [line]
  | afterCr, line, c :: rest =>
      if afterCr ∧ c.val = 0x0A then linesFrom false line rest
      else if isLineBreak c then line :: linesFrom (c.val == 0x0D) [] rest
      else linesFrom false (line ++ [c]) rest

/-- `text.splitlines()`. -/
def splitLines (text : PyStr) : List PyStr := linesFrom false [] text

/-- `text.rsplit(separator, 1)[-1]`. -/
def afterLast (separator text : PyStr) : PyStr :=
  match (text.tails.filter fun rest => separator.isPrefixOf rest).getLast? with
  | some rest => rest.drop separator.length
  | none => text

/-- `text.removesuffix(suffix)`. -/
def removeSuffix (suffix text : PyStr) : PyStr :=
  if suffix.isSuffixOf text then text.take (text.length - suffix.length) else text

/-- `text.split(maxsplit=1)[0]`, on a text that is not blank. -/
def firstToken (text : PyStr) : PyStr := (text.dropWhile isSpace).takeWhile fun c => !isSpace c

/-- A letter of a pattern under `re.I`, given in lower case. -/
def matchesLetter (letter c : Fin 0x110000) : Bool :=
  c.val == letter.val || c.val + 0x20 == letter.val ||
    (letter.val == 0x69 && (c.val == 0x130 || c.val == 0x131)) ||
    (letter.val == 0x73 && c.val == 0x17F)

/-- The word stands at the beginning of the text, in either case. -/
def beginsWith (word text : PyStr) : Bool :=
  word.length ≤ text.length && (word.zip text).all fun (letter, c) => matchesLetter letter c

end PyStr

namespace Scanners

inductive FindingKind
  | signatureMatch
  | ruleMatch
  | iocMatch
  | heuristicWarning
  | operationalError
  deriving DecidableEq, Repr

/-- What a detector run leaves. -/
structure CommandResult where
  argv : List PyStr
  exitCode : ℤ
  stdout : PyStr
  stderr : PyStr
  timedOut : Bool
  isolated : Bool
  isolationFailed : Bool
  deriving DecidableEq

/-- What `definition_state` returns: a text, a number or `None` under each key. -/
abbrev DefinitionState := List (String × Option (String ⊕ ℤ))

/-- A `ScannerResult` with the fields that only an adapter fills in. -/
structure AdapterResult extends ScannerResult where
  nativeVerdict : String
  detectionName : Option PyStr
  exitCode : ℤ
  definitionVersion : Option String
  runtimeProfile : String
  findingKind : Option FindingKind
  definitionState : DefinitionState
  deriving DecidableEq

/-- What an adapter reads beside the run, and the tables of the characters that `\b` and `\d` tell
apart. -/
structure AdapterEnv where
  activeJobId : String
  storeRawOutput : String → String → CommandResult → Except Exc String
  probe : Except Exc ProbeResult
  definitionVersion : Except Exc (Option String)
  definitionState : Except Exc DefinitionState
  isWord : Fin 0x110000 → Bool
  isDecimal : Fin 0x110000 → Bool

variable (env : AdapterEnv)

/-- `CommandFileAdapter.result`. -/
def result (scannerId : String) (command : CommandResult) (verdict : Verdict)
    (nativeVerdict : String) (detection : Option PyStr) (kind : Option FindingKind) :
    Except Exc AdapterResult := do
  let owner := if command.argv = [] then "system" else env.activeJobId
  let ref ← env.storeRawOutput owner scannerId command
  let probe ← env.probe
  let definitionVersion ← env.definitionVersion
  let definitionState ← env.definitionState
  return {
    scannerId := scannerId
    normalizedVerdict := verdict
    rawOutputRef := ref
    engineVersion := probe.version
    selectedReason := none
    qualificationState := none
    nativeVerdict := nativeVerdict
    detectionName := detection
    exitCode := command.exitCode
    definitionVersion := definitionVersion
    runtimeProfile :=
      if command.isolated then "linux-bwrap-read-only-no-network"
      else "linux-bounded-direct-degraded"
    findingKind := kind
    definitionState := definitionState }

/-- A verdict beside the result that is built with it. -/
def report (scannerId : String) (command : CommandResult) (verdict : Verdict)
    (nativeVerdict : String) (detection : Option PyStr) (kind : Option FindingKind) :
    Except Exc (Verdict × AdapterResult) := do
  let built ← result env scannerId command verdict nativeVerdict detection kind
  return (verdict, built)

/-! ## The adapters -/

/-- The name in the first line that ends in ` FOUND`. -/
def detectionOf (stdout : PyStr) : Option PyStr :=
  let found := PyStr.ofString " FOUND"
  let line := ((PyStr.splitLines stdout).find? fun line => found.isSuffixOf line).getD []
  let name := PyStr.removeSuffix found (PyStr.afterLast (PyStr.ofString ": ") line)
  if name = [] then none else some name

/-- `ClamAVAdapter.normalize`. -/
def clamav (command : CommandResult) : Except Exc (Verdict × AdapterResult) :=
  let report := report env "clamav" command
  if command.isolationFailed then
    report .error "isolation-failed" none (some .operationalError)
  else if command.timedOut then report .error "timeout" none (some .operationalError)
  else if command.exitCode = 0 then report .clean "clean" none none
  else if command.exitCode = 1 then
    report .malicious "FOUND" (detectionOf command.stdout) (some .signatureMatch)
  else report .error "scanner-error" none (some .operationalError)

/-- The first tokens of the lines that are not blank. -/
def ruleMatches (stdout : PyStr) : List PyStr :=
  ((PyStr.splitLines stdout).filter fun line => PyStr.strip line ≠ []).map PyStr.firstToken

/-- `YaraAdapter.normalize`, which `YaraXAdapter` inherits. -/
def yaraRules (scannerId : String) (command : CommandResult) :
    Except Exc (Verdict × AdapterResult) :=
  let report := report env scannerId command
  if command.isolationFailed then
    report .error "isolation-failed" none (some .operationalError)
  else if command.timedOut ∨ command.exitCode ∉ [0, 1] then
    report .error "scanner-error" none (some .operationalError)
  else
    let found := ruleMatches command.stdout
    if found ≠ [] then
      report .suspicious "rule-match" (some (List.intercalate (PyStr.ofString ",") found))
        (some .ruleMatch)
    else report .clean "no-match" none none

def yara (command : CommandResult) : Except Exc (Verdict × AdapterResult) :=
  yaraRules env "yara" command

def yaraX (command : CommandResult) : Except Exc (Verdict × AdapterResult) :=
  yaraRules env "yara-x" command

/-- `re.search(r"\bword\b", text, re.I)`, given whether a word character stands before the text. -/
def searchWord (isWord : Fin 0x110000 → Bool) (word : PyStr) : Bool → PyStr → Bool
  | _, [] => false
  | before, c :: rest =>
      let text := c :: rest
      let after := (text[word.length]?).any isWord
      (!before && PyStr.beginsWith word text && !after) || searchWord isWord word (isWord c) rest

/-- `LokiAdapter.normalize`. -/
def loki (command : CommandResult) : Except Exc (Verdict × AdapterResult) :=
  let report := report env "loki" command
  let text := command.stdout ++ command.stderr
  if command.isolationFailed then
    report .error "isolation-failed" none (some .operationalError)
  else if command.timedOut ∨ command.exitCode ∉ [0, 1] then
    report .error "scanner-error" none (some .operationalError)
  else if searchWord env.isWord (PyStr.ofString "alert") false text then
    report .malicious "ALERT" none (some .iocMatch)
  else if searchWord env.isWord (PyStr.ofString "warning") false text then
    report .suspicious "WARNING" none (some .heuristicWarning)
  else report .clean "clean" none none

/-- The number behind `hits:` at the beginning of a text, if it does not start with a zero. -/
def hitsAt (isDecimal : Fin 0x110000 → Bool) (text : PyStr) : Option PyStr :=
  if PyStr.beginsWith (PyStr.ofString "hits") text then
    match (text.drop 4).dropWhile PyStr.isSpace with
    | colon :: rest =>
        match rest.dropWhile PyStr.isSpace with
        | digit :: digits =>
            if colon.val = 0x3A ∧ 0x31 ≤ digit.val ∧ digit.val ≤ 0x39 then
              some (digit :: digits.takeWhile isDecimal)
            else none
        | [] => none
    | [] => none
  else none

/-- `re.search(r"hits\s*:\s*([1-9]\d*)", text, re.I)`. -/
def searchHits (isDecimal : Fin 0x110000 → Bool) (text : PyStr) : Option PyStr :=
  text.tails.findSome? (hitsAt isDecimal)

/-- `MaldetAdapter.normalize`. -/
def maldet (command : CommandResult) : Except Exc (Verdict × AdapterResult) :=
  let report := report env "maldet" command
  let text := command.stdout ++ command.stderr
  if command.isolationFailed then
    report .error "isolation-failed" none (some .operationalError)
  else if command.timedOut ∨ command.exitCode ∉ [0, 1] then
    report .error "scanner-error" none (some .operationalError)
  else
    match searchHits env.isDecimal text with
    | some hits => report .malicious "hits" (some hits) (some .signatureMatch)
    | none => report .clean "no-hits" none none

/-- The file adapters. -/
inductive Adapter
  | clamav
  | yara
  | yaraX
  | loki
  | maldet
  deriving DecidableEq, Repr

def Adapter.scannerId : Adapter → String
  | .clamav => "clamav"
  | .yara => "yara"
  | .yaraX => "yara-x"
  | .loki => "loki"
  | .maldet => "maldet"

/-- `adapter.normalize(native)`. -/
def normalize (command : CommandResult) : Adapter → Except Exc (Verdict × AdapterResult)
  | .clamav => clamav env command
  | .yara => yara env command
  | .yaraX => yaraX env command
  | .loki => loki env command
  | .maldet => maldet env command

/-! ## When a verdict is CLEAN -/

/-- The run has ended by itself, with its isolation in place. -/
def Completed (command : CommandResult) : Prop :=
  command.timedOut = false ∧ command.isolationFailed = false

/-- The adapter takes the exit code for one of a successful run. -/
def Accepts (command : CommandResult) : Adapter → Prop
  | .clamav => command.exitCode = 0
  | _ => command.exitCode = 0 ∨ command.exitCode = 1

/-- The output holds nothing that the adapter reports. -/
def Silent (command : CommandResult) : Adapter → Prop
  | .clamav => True
  | .yara | .yaraX => ruleMatches command.stdout = []
  | .loki =>
      searchWord env.isWord (PyStr.ofString "alert") false (command.stdout ++ command.stderr) =
          false ∧
        searchWord env.isWord (PyStr.ofString "warning") false (command.stdout ++ command.stderr) =
          false
  | .maldet => searchHits env.isDecimal (command.stdout ++ command.stderr) = none

/-- The result of the run can be built. -/
def Built (command : CommandResult) (adapter : Adapter) : Prop :=
  ∃ value, result env adapter.scannerId command .clean "" none none = .ok value

/-- What an adapter reports about a run, and when it reports that the object is clean. -/
structure Decides (command : CommandResult) (adapter : Adapter)
    (normalized : Except Exc (Verdict × AdapterResult)) : Prop where
  reports : ∃ verdict text detection kind,
    normalized = report env adapter.scannerId command verdict text detection kind ∧
      (verdict = .clean ↔ Completed command ∧ Accepts command adapter ∧ Silent env command adapter)

variable {env} {command : CommandResult} {adapter : Adapter}

lemma Decides.refused {verdict : Verdict} {text : String} {detection : Option PyStr}
    {kind : Option FindingKind} (hverdict : verdict ≠ .clean)
    (hnot : ¬(Completed command ∧ Accepts command adapter ∧ Silent env command adapter)) :
    Decides env command adapter
      (report env adapter.scannerId command verdict text detection kind) :=
  ⟨verdict, text, detection, kind, rfl, iff_of_false hverdict hnot⟩

lemma Decides.clean {text : String} {detection : Option PyStr} {kind : Option FindingKind}
    (h : Completed command ∧ Accepts command adapter ∧ Silent env command adapter) :
    Decides env command adapter (report env adapter.scannerId command .clean text detection kind) :=
  ⟨.clean, text, detection, kind, rfl, iff_of_true rfl h⟩

lemma clamav_decides : Decides env command .clamav (clamav env command) := by
  unfold clamav
  dsimp only
  split
  · next hisolation => exact .refused (by decide) fun h => by simp [h.1.2] at hisolation
  next hisolation =>
  split
  · next htimeout => exact .refused (by decide) fun h => by simp [h.1.1] at htimeout
  next htimeout =>
  have hcompleted : Completed command := ⟨by simpa using htimeout, by simpa using hisolation⟩
  split
  · next hzero => exact .clean ⟨hcompleted, hzero, trivial⟩
  next hzero =>
  split
  · exact .refused (by decide) fun h => hzero h.2.1
  · exact .refused (by decide) fun h => hzero h.2.1

/-- The three adapters that look at the output of a run behind the same two checks. -/
lemma decides_of_output {text : String} {detection : Option PyStr} {kind : Option FindingKind}
    {normalized : Except Exc (Verdict × AdapterResult)}
    (haccepts : Accepts command adapter ↔ command.exitCode = 0 ∨ command.exitCode = 1)
    (h : Completed command → Accepts command adapter → Decides env command adapter normalized) :
    Decides env command adapter
      (if command.isolationFailed = true then
        report env adapter.scannerId command .error "isolation-failed" none (some .operationalError)
      else if command.timedOut = true ∨ command.exitCode ∉ [0, 1] then
        report env adapter.scannerId command .error text detection kind
      else normalized) := by
  split
  · next hisolation => exact .refused (by decide) fun h => by simp [h.1.2] at hisolation
  next hisolation =>
  split
  · next hfailed =>
      refine .refused (by decide) fun hclean => ?_
      rcases hfailed with htimeout | hcode
      · simp [hclean.1.1] at htimeout
      · exact hcode (by simpa using haccepts.1 hclean.2.1)
  · next hfailed =>
      obtain ⟨htimeout, hcode⟩ := not_or.1 hfailed
      refine h ⟨by simpa using htimeout, by simpa using hisolation⟩ (haccepts.2 ?_)
      simpa using not_not.1 hcode

lemma yara_decides : Decides env command .yara (yara env command) := by
  refine decides_of_output Iff.rfl fun hcompleted haccepts => ?_
  dsimp only
  split
  · next hfound => exact .refused (by decide) fun h => hfound h.2.2
  · next hfound => exact .clean ⟨hcompleted, haccepts, not_not.1 hfound⟩

lemma yaraX_decides : Decides env command .yaraX (yaraX env command) := by
  refine decides_of_output Iff.rfl fun hcompleted haccepts => ?_
  dsimp only
  split
  · next hfound => exact .refused (by decide) fun h => hfound h.2.2
  · next hfound => exact .clean ⟨hcompleted, haccepts, not_not.1 hfound⟩

lemma loki_decides : Decides env command .loki (loki env command) := by
  refine decides_of_output Iff.rfl fun hcompleted haccepts => ?_
  split
  · next halert => exact .refused (by decide) fun h => by simp [h.2.2.1] at halert
  next halert =>
  split
  · next hwarning => exact .refused (by decide) fun h => by simp [h.2.2.2] at hwarning
  · next hwarning =>
      exact .clean ⟨hcompleted, haccepts, by simpa using halert, by simpa using hwarning⟩

lemma maldet_decides : Decides env command .maldet (maldet env command) := by
  refine decides_of_output Iff.rfl fun hcompleted haccepts => ?_
  cases hhits : searchHits env.isDecimal (command.stdout ++ command.stderr) with
  | some hits => exact .refused (by decide) fun h => by simp [Silent, hhits] at h
  | none => exact .clean ⟨hcompleted, haccepts, hhits⟩

lemma normalize_decides : Decides env command adapter (normalize env command adapter) := by
  cases adapter with
  | clamav => exact clamav_decides
  | yara => exact yara_decides
  | yaraX => exact yaraX_decides
  | loki => exact loki_decides
  | maldet => exact maldet_decides

section report

variable {scannerId text : String} {verdict : Verdict} {detection : Option PyStr}
  {kind : Option FindingKind}

/-- A result that is built carries the reference of the stored output and the verdict. -/
lemma result_eq_ok {value : AdapterResult}
    (h : result env scannerId command verdict text detection kind = .ok value) :
    env.storeRawOutput (if command.argv = [] then "system" else env.activeJobId) scannerId
        command = .ok value.rawOutputRef ∧ value.normalizedVerdict = verdict := by
  obtain ⟨ref, href, hrest⟩ := Fallible.bind_eq_ok.1 h
  obtain ⟨probe, -, hrest⟩ := Fallible.bind_eq_ok.1 hrest
  obtain ⟨version, -, hrest⟩ := Fallible.bind_eq_ok.1 hrest
  obtain ⟨state, -, hvalue⟩ := Fallible.bind_eq_ok.1 hrest
  cases hvalue
  exact ⟨href, rfl⟩

/-- The verdict beside a result is the one in it. -/
lemma report_eq_ok {verdict' : Verdict} {value : AdapterResult}
    (h : report env scannerId command verdict text detection kind = .ok (verdict', value)) :
    verdict' = verdict ∧ value.normalizedVerdict = verdict := by
  obtain ⟨built, hbuilt, hpair⟩ := Fallible.bind_eq_ok.1 h
  have hverdict := (result_eq_ok hbuilt).2
  cases hpair
  exact ⟨rfl, hverdict⟩

/-- Whether a result can be built does not depend on what it says. -/
lemma result_built_iff :
    (∃ value, result env scannerId command verdict text detection kind = .ok value) ↔
      (∃ ref, env.storeRawOutput (if command.argv = [] then "system" else env.activeJobId)
        scannerId command = .ok ref) ∧ (∃ probe, env.probe = .ok probe) ∧
        (∃ version, env.definitionVersion = .ok version) ∧
        ∃ state, env.definitionState = .ok state := by
  constructor
  · rintro ⟨value, h⟩
    obtain ⟨ref, href, hrest⟩ := Fallible.bind_eq_ok.1 h
    obtain ⟨probe, hprobe, hrest⟩ := Fallible.bind_eq_ok.1 hrest
    obtain ⟨version, hversion, hrest⟩ := Fallible.bind_eq_ok.1 hrest
    obtain ⟨state, hstate, -⟩ := Fallible.bind_eq_ok.1 hrest
    exact ⟨⟨ref, href⟩, ⟨probe, hprobe⟩, ⟨version, hversion⟩, state, hstate⟩
  · rintro ⟨⟨ref, href⟩, ⟨probe, hprobe⟩, ⟨version, hversion⟩, state, hstate⟩
    simp only [result, href, hprobe, hversion, hstate]
    exact ⟨_, rfl⟩

lemma report_built_iff :
    (∃ pair, report env adapter.scannerId command verdict text detection kind = .ok pair) ↔
      Built env command adapter := by
  rw [Built, result_built_iff, ← @result_built_iff env command _ text verdict detection kind]
  constructor
  · rintro ⟨pair, h⟩
    obtain ⟨value, hvalue, -⟩ := Fallible.bind_eq_ok.1 h
    exact ⟨value, hvalue⟩
  · rintro ⟨value, hvalue⟩
    exact ⟨(verdict, value), Fallible.bind_eq_ok.2 ⟨value, hvalue, rfl⟩⟩

end report

/-- An adapter calls an object clean only after a run that ended well, unless the detector exits
with 1 and prints nothing that the adapter looks for. -/
theorem clean_after_success_iff (env : AdapterEnv) (command : CommandResult) (adapter : Adapter) :
    (∀ verdict value, normalize env command adapter = .ok (verdict, value) →
        value.normalizedVerdict = verdict ∧
          (verdict = .clean →
            command.exitCode = 0 ∧ command.timedOut = false ∧ command.isolationFailed = false)) ↔
      ¬(Built env command adapter ∧ adapter ≠ .clamav ∧ Completed command ∧ command.exitCode = 1 ∧
        Silent env command adapter) := by
  obtain ⟨verdict, text, detection, kind, hreport, hclean⟩ :=
    (@normalize_decides env command adapter).reports
  rw [hreport]
  constructor
  · rintro h ⟨hbuilt, hadapter, hcompleted, hcode, hsilent⟩
    have haccepts : Accepts command adapter := by
      cases adapter with
      | clamav => exact absurd rfl hadapter
      | _ => exact .inr hcode
    obtain ⟨⟨verdict', value⟩, hok⟩ := report_built_iff.2 hbuilt
    have hverdict := (report_eq_ok hok).1.trans (hclean.2 ⟨hcompleted, haccepts, hsilent⟩)
    have hzero := ((h verdict' value hok).2 hverdict).1
    omega
  · intro h verdict' value hok
    obtain ⟨rfl, hvalue⟩ := report_eq_ok hok
    refine ⟨hvalue, fun hverdict => ?_⟩
    obtain ⟨hcompleted, haccepts, hsilent⟩ := hclean.1 hverdict
    refine ⟨?_, hcompleted⟩
    by_contra hne
    refine h ⟨report_built_iff.1 ⟨_, hok⟩, ?_, hcompleted, ?_, hsilent⟩
    · rintro rfl
      exact hne haccepts
    · cases adapter with
      | clamav => exact absurd haccepts hne
      | _ => exact haccepts.resolve_left hne

/-- YARA exits with 1 after it has failed to read an object. -/
def unreadable : CommandResult where
  argv := [PyStr.ofString "yara"]
  exitCode := 1
  stdout := []
  stderr := PyStr.ofString "error: could not open file"
  timedOut := false
  isolated := true
  isolationFailed := false

/-- A host on which every result can be built. -/
def plainEnv : AdapterEnv where
  activeJobId := "job"
  storeRawOutput := fun _ _ _ => .ok "raw-output/job/yara.log"
  probe := .ok ⟨true, "/usr/bin/yara", .probed, some "4.5.2"⟩
  definitionVersion := .ok none
  definitionState := .ok [("rule_set", none)]
  isWord := fun c => decide (0x30 ≤ c.val)
  isDecimal := fun c => decide (0x30 ≤ c.val ∧ c.val ≤ 0x39)

theorem unreadable_is_clean :
    ¬∀ verdict value, normalize plainEnv unreadable .yara = .ok (verdict, value) →
      value.normalizedVerdict = verdict ∧
        (verdict = .clean → unreadable.exitCode = 0 ∧ unreadable.timedOut = false ∧
          unreadable.isolationFailed = false) := by
  intro h
  have hzero := ((h .clean _ rfl).2 rfl).1
  exact absurd hzero (by decide)

end Scanners

end AVBox
