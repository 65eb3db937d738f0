import AVBox.Analyzers.Budgets
import AVBox.Analyzers.Visits
import Mathlib.Tactic.NormNum

/-!
# What is written to the files of children

`_materialize` writes a child chunk by chunk, and charges `total_extracted_bytes` when the child is
complete.  A child that is given up is removed again and charged nothing.

The bytes charged, the bytes of the discarded children and those of the unfinished one add up to
what was written (`WriteLedger`).  The charged bytes are within the budget, so what was written is,
as long as no child is given up when something has been written to its file.
-/

namespace AVBox

open Program

namespace ContainerAnalyzer

variable {ω : Type} {env : ExtractEnv} {scans : Scans ω}

/-- The number of bytes that `_materialize` has written. -/
def written (t : ExtractState ω) : ℕ := t.trace.chunks.sum

/-! ## The account -/

/-- What was written is accounted for. -/
def WriteLedger (s : ExtractState ω) : Prop :=
  s.usage.totalExtractedBytes + s.trace.discarded + s.trace.unfinished = written s

/-- A write that leaves the record of the chunks alone keeps the ledger, if it keeps the balance. -/
lemma WriteLedger.of_same {s t : ExtractState ω} (h : WriteLedger s)
    (hchunks : t.trace.chunks = s.trace.chunks)
    (hbalance : t.usage.totalExtractedBytes + t.trace.discarded + t.trace.unfinished =
      s.usage.totalExtractedBytes + s.trace.discarded + s.trace.unfinished) :
    WriteLedger t := by
  have hwritten : written t = written s := by rw [written, written, hchunks]
  exact hbalance.trans (h.trans hwritten.symm)

/-- A chunk adds its length to what was written. -/
lemma written_wrote (s : ExtractState ω) (length : ℕ) :
    written ((Write.wrote length).apply s) = written s + length := by
  simp [written, Write.apply, Write.note]

lemma WriteLedger.step {s t : ExtractState ω} (h : WriteLedger s)
    (hstep : Step env scans s t) : WriteLedger t := by
  cases hstep with
  | scan artifact label content => exact h.of_same rfl rfl
  | write write hallowed =>
      cases write with
      | wrote length =>
          have hbalance : _ = written s := h
          rw [WriteLedger, written_wrote]
          simp only [Write.apply, Write.change, Write.note]
          omega
      | created | unlinked =>
          refine h.of_same rfl ?_
          simp only [Write.apply, Write.change, Write.note]
          omega
      | stored content =>
          refine h.of_same rfl ?_
          have hfile := hallowed.2.2
          simp only [Write.apply, Write.change, Write.note]
          omega
      | event name =>
          refine h.of_same rfl ?_
          simp [Write.apply, Write.change, Write.note]
      | begun relation content =>
          refine h.of_same ?_ ?_ <;> simp only [Write.apply, Write.change, Write.note] <;>
            split <;> rfl
      | _ => exact h.of_same rfl rfl

lemma writeLedger_begin (source : Bytes) (s : ExtractState ω) : WriteLedger (begin source s) := rfl

/-! ## Children that are given up -/

/-- A chunk that continues a file passes the checks. -/
def Followed (env : ExtractEnv) (read : ChunkRead) : Prop :=
  read.size = 0 ∨ env.elapsed read.ticks ≤ env.budget.maxExtractionTimeSeconds ∧
    chunkLimit env read.usage read.parentSize read.size read.chunk = none

instance (env : ExtractEnv) (read : ChunkRead) : Decidable (Followed env read) :=
  inferInstanceAs (Decidable (_ ∨ _))

/-- No child is given up when something has been written to its file, by a check on a chunk or by
an exception. -/
def NoneGivenUp (env : ExtractEnv) (t : ExtractState ω) : Prop :=
  (∀ read ∈ t.trace.reads, Followed env read) ∧ t.trace.torn = []

/-- Nothing has been discarded, and the record of the reads goes on. -/
structure Filed (s t : ExtractState ω) : Prop where
  reads : s.trace.reads <+: t.trace.reads
  torn : s.trace.torn <+: t.trace.torn
  discarded : t.trace.discarded = s.trace.discarded

lemma Filed.refl (s : ExtractState ω) : Filed s s := ⟨List.prefix_rfl, List.prefix_rfl, rfl⟩

lemma Filed.trans {s t u : ExtractState ω} (h : Filed s t) (h' : Filed t u) : Filed s u :=
  ⟨h.reads.trans h'.reads, h.torn.trans h'.torn, h'.discarded.trans h.discarded⟩

lemma filed_failed (site : DecodeSite) (exc : Exc) (s : ExtractState ω) :
    Filed s ((Write.failed site exc).apply s) := by
  refine ⟨List.prefix_rfl, ?_, rfl⟩
  simp only [Write.apply, Write.note]
  split
  · exact List.prefix_rfl
  · exact List.prefix_append _ _

/-- An exception that is not noted as torn has found the file empty. -/
lemma unfinished_of_failed {site : DecodeSite} {exc : Exc} {s : ExtractState ω}
    (h : ((Write.failed site exc).apply s).trace.torn = []) : s.trace.unfinished = 0 := by
  simp only [Write.apply, Write.note] at h
  split at h
  · assumption
  · simp at h

/-- How the loop over the chunks ends, as far as the file goes. -/
def FileEnd (env : ExtractEnv) (s : ExtractState ω) :
    EStateM.Result Exc (ExtractState ω) (Option Bytes) → Prop
  | .ok none t =>
      Filed s t ∧ ((∀ read ∈ t.trace.reads, Followed env read) → t.trace.unfinished = 0)
  | .ok (some _) t => Filed s t
  | .error _ t => Filed s t ∧ (t.trace.torn = [] → t.trace.unfinished = 0)

lemma FileEnd.of_filed {s t : ExtractState ω}
    {r : EStateM.Result Exc (ExtractState ω) (Option Bytes)} (h : Filed s t)
    (h' : FileEnd env t r) : FileEnd env s r := by
  match r with
  | .ok none u => exact ⟨h.trans h'.1, h'.2⟩
  | .ok (some read) u => exact h.trans h'
  | .error exc u => exact ⟨h.trans h'.1, h'.2⟩

/-- A chunk that the checks stop has found the file empty, if it was to be followed. -/
lemma fileEnd_event {read : ChunkRead} {s : ExtractState ω} {event : String}
    (hmem : read ∈ s.trace.reads) (hsize : s.trace.unfinished = read.size)
    (hstops : ¬(env.elapsed read.ticks ≤ env.budget.maxExtractionTimeSeconds ∧
      chunkLimit env read.usage read.parentSize read.size read.chunk = none)) :
    FileEnd env s (.ok none ((Write.event event).apply s)) :=
  ⟨⟨List.prefix_rfl, List.prefix_rfl, rfl⟩, fun hfollowed =>
    hsize.trans ((hfollowed read hmem).resolve_right hstops)⟩

lemma readChunks_fileEnd (parentSize : ℕ) (fault : Option Exc) (chunks : List Bytes)
    (content : Bytes) (s : ExtractState ω) (hopen : s.trace.unfinished = content.length) :
    FileEnd env s (readChunks env parentSize fault chunks content s) := by
  induction chunks generalizing content s with
  | nil =>
      cases fault with
      | none => exact .refl s
      | some exc => exact ⟨filed_failed .read exc s, unfinished_of_failed⟩
  | cons chunk chunks ih =>
      simp only [readChunks, get_bind_apply, perform, modify_bind_apply]
      generalize hread :
        (⟨chunk, content.length, parentSize, s.usage, s.ticks⟩ : ChunkRead) = read
      rw [bind_of_ok (expired_apply _)]
      have hticks : ((Write.read read).apply s).ticks = read.ticks := by rw [← hread]; rfl
      rw [hticks]
      have hfiled : Filed s (Write.tick.apply ((Write.read read).apply s)) :=
        ⟨List.prefix_append _ _, List.prefix_rfl, rfl⟩
      have hmem : read ∈ (Write.tick.apply ((Write.read read).apply s)).trace.reads :=
        List.mem_append_right _ (List.mem_singleton_self _)
      have hsize : (Write.tick.apply ((Write.read read).apply s)).trace.unfinished = read.size := by
        rw [← hread]
        exact hopen
      have husage : (Write.tick.apply ((Write.read read).apply s)).usage = read.usage := by
        rw [← hread]
        rfl
      generalize Write.tick.apply ((Write.read read).apply s) = u at *
      refine FileEnd.of_filed hfiled ?_
      split
      next hlate =>
        exact fileEnd_event hmem hsize fun hpasses =>
          absurd (of_decide_eq_true hlate) (not_lt.2 hpasses.1)
      · simp only [get_bind_apply]
        cases hlimit : chunkLimit env u.usage parentSize content.length chunk with
        | some event =>
            refine fileEnd_event hmem hsize fun hpasses => ?_
            rw [husage] at hlimit
            rw [← hread] at hpasses hlimit
            exact absurd (hlimit.symm.trans hpasses.2) (by simp)
        | none =>
            have hwrote : Filed u ((Write.wrote chunk.length).apply u) :=
              ⟨List.prefix_rfl, List.prefix_rfl, rfl⟩
            refine FileEnd.of_filed hwrote (ih (content ++ chunk) _ ?_)
            have hsum : ((Write.wrote chunk.length).apply u).trace.unfinished =
                u.trace.unfinished + chunk.length := rfl
            rw [hsum, hsize, ← hread, List.length_append]

/-- Outside of `_materialize` no file is unfinished, and nothing is discarded if no child is given
up. -/
def Tidy (env : ExtractEnv) (s t : ExtractState ω) : Prop :=
  s.trace.unfinished = 0 → t.trace.unfinished = 0 ∧ s.trace.reads <+: t.trace.reads ∧
    s.trace.torn <+: t.trace.torn ∧ (NoneGivenUp env t → t.trace.discarded = s.trace.discarded)

lemma Tidy.of_filed {s t : ExtractState ω} (h : Filed s t)
    (hunfinished : t.trace.unfinished = s.trace.unfinished) : Tidy env s t :=
  fun hs => ⟨hunfinished.trans hs, h.reads, h.torn, fun _ => h.discarded⟩

lemma Tidy.trans {s t u : ExtractState ω} (h : Tidy env s t) (h' : Tidy env t u) :
    Tidy env s u := by
  intro hs
  obtain ⟨ht, hreads, htorn, hdiscarded⟩ := h hs
  obtain ⟨hu, hreads', htorn', hdiscarded'⟩ := h' ht
  refine ⟨hu, hreads.trans hreads', htorn.trans htorn', fun hnone => ?_⟩
  have hearlier : NoneGivenUp env t :=
    ⟨fun read hread => hnone.1 read (hreads'.subset hread),
      List.prefix_nil.1 (hnone.2 ▸ htorn')⟩
  exact (hdiscarded' hnone).trans (hdiscarded hearlier)

/-- The writes that have nothing to do with files. -/
lemma tidy_apply {write : Write} (h : Write.filing write = false) (s : ExtractState ω) :
    Tidy env s (write.apply s) := by
  cases write with
  | created | read | wrote | unlinked | stored => cases h
  | failed site exc => exact .of_filed (filed_failed site exc s) rfl
  | begun relation content =>
      refine .of_filed ⟨?_, ?_, ?_⟩ ?_ <;> simp only [Write.apply, Write.note] <;> split <;>
        first | exact List.prefix_rfl | rfl
  | _ => exact .of_filed ⟨List.prefix_rfl, List.prefix_rfl, rfl⟩ rfl

lemma tidy_respected : Respected (Tidy (ω := ω) env) where
  refl s := .of_filed (.refl s) rfl
  trans _ _ _ := .trans
  minor write hminor s := tidy_apply (by cases write <;> first | rfl | cases hminor) s

/-- A file is removed. -/
lemma Tidy.unlinked {s t : ExtractState ω} (h : Filed s t)
    (hempty : NoneGivenUp env t → t.trace.unfinished = 0) :
    Tidy env s (Write.unlinked.apply t) := by
  refine fun _ => ⟨rfl, h.reads, h.torn, fun hnone => ?_⟩
  have hremoved : (Write.unlinked.apply t).trace.discarded =
      t.trace.discarded + t.trace.unfinished := rfl
  rw [hremoved, hempty hnone, h.discarded, Nat.add_zero]

lemma materialize_tidy (stream : ByteStream) (parentSize : ℕ) :
    Moves (Tidy (ω := ω) env) (materialize env stream parentSize) := by
  refine fun s hs => ?_
  revert hs
  change Tidy env s _
  have hcreated : Tidy env s (Write.created.apply s) := by
    refine fun hs => ⟨rfl, List.prefix_rfl, List.prefix_rfl, fun _ => ?_⟩
    change s.trace.discarded + s.trace.unfinished = _
    rw [hs, Nat.add_zero]
  simp only [materialize, final, get_bind_apply]
  by_cases htarget : s.usage.childrenMaterialized < s.files.length
  · simp only [htarget, if_true]
    exact @tidy_apply ω env (.failed .target _) rfl s
  · simp only [htarget, if_false]
    rw [decode, pure_bind_apply, perform, modify_bind_apply, tryCatch_apply, writeChild]
    refine hcreated.trans ?_
    have hread := @readChunks_fileEnd ω env parentSize stream.fault stream.chunks []
      (Write.created.apply s) rfl
    cases hrun : readChunks env parentSize stream.fault stream.chunks []
        (Write.created.apply s) with
    | error exc t =>
        rw [hrun] at hread
        rw [bind_of_error hrun]
        exact .unlinked hread.1 fun hnone => hread.2 hnone.2
    | ok read t =>
        rw [hrun] at hread
        rw [bind_of_ok hrun]
        cases read with
        | none => exact .unlinked hread.1 fun hnone => hread.2 hnone.1
        | some content =>
            cases hstore : env.storeFault s.usage.childrenMaterialized with
            | some exc =>
                refine .unlinked (Filed.trans hread (filed_failed .store exc t)) fun hnone => ?_
                exact @unfinished_of_failed ω .store exc t hnone.2
            | none => exact fun _ => ⟨rfl, hread.reads, hread.torn, fun _ => hread.discarded⟩

lemma Calms.tidy {s t : ExtractState ω} (h : Calms s t) : Tidy env s t := by
  induction h with
  | refl => exact tidy_respected.refl _
  | tail _ step ih =>
      refine ih.trans ?_
      cases step with
      | write write plain => exact tidy_respected.minor write (Write.minor_of_plain plain) _
      | scan scans => exact .of_filed ⟨List.prefix_rfl, List.prefix_rfl, rfl⟩ rfl

lemma Before.tidy {source : Source} {member : Member} {s t : ExtractState ω}
    (h : Before env source member s t) : Tidy env s t := by
  rcases h with rfl | rfl
  · exact @tidy_apply ω env (.event _) rfl s
  · exact materialize_tidy _ _ s

lemma childOf_tidy {recurse : Recurse ω} {source : Source}
    (hrecurse : ∀ depth artifact content, Moves (Tidy env) (recurse depth artifact content))
    (member : Member) : Moves (Tidy env) (childOf env scans recurse source member) := by
  intro s
  have hbegun (u : ExtractState ω) :
      Tidy env u ((Write.begun member.relation member.content).apply u) :=
    tidy_apply rfl u
  have hsplit := childOf_split env scans recurse source member s
  generalize hrun : childOf env scans recurse source member s = r at hsplit
  cases hsplit with
  | aside before ends =>
      rcases ends with ⟨rfl, -⟩ | ⟨exc, rfl⟩
      · rw [final_of_ok hrun]
        exact before.tidy
      · rw [final_of_error hrun]
        exact before.tidy
  | failed before after ends =>
      obtain ⟨exc, rfl⟩ := ends
      rw [final_of_error hrun]
      exact (before.tidy.trans (hbegun _)).trans after.tidy
  | @entered u v artifact result before after named ends =>
      have hbelow : Moves (Tidy env)
          (below env recurse (source.depth + 1) artifact member.content) :=
        below_moves tidy_respected (hrecurse _ _ _)
      have hrecorded : Tidy env v
          (recorded source.parent member (source.depth + 1) artifact member.content result v) :=
        ((tidy_apply rfl _).trans (tidy_apply rfl _)).trans (tidy_apply rfl _)
      have hend := hbelow
        (recorded source.parent member (source.depth + 1) artifact member.content result v)
      rw [final, ← ends, ← hrun, ← final] at hend
      exact ((before.tidy.trans (hbegun u)).trans after.tidy).trans (hrecorded.trans hend)

/-- A run in which no child is given up has discarded nothing. -/
lemma process_tidy (env : ExtractEnv) (scans : Scans ω) (source : Bytes) (s : ExtractState ω) :
    Tidy env (begin source s) (final (process env scans source) s) := by
  have hobject := @processObject_moves ω env scans _ tidy_respected
    (fun _ _ hrecurse member _ => childOf_tidy hrecurse member)
    (recursionFuel env) 0 s.job.inputArtifact source (begin source s)
  obtain ⟨t, hrest, hfinal⟩ := process_final tidy_respected env scans source s
  rw [hfinal]
  exact hobject.trans (hrest.trans (.of_filed ⟨List.prefix_rfl, List.prefix_rfl, rfl⟩ rfl))

/-- What is written during a run stays within the budget, if no child is given up when something
has been written to its file. -/
theorem written_within_budget (env : ExtractEnv) (scans : Scans ω) (source : Bytes)
    (s : ExtractState ω) (h : NoneGivenUp env (final (process env scans source) s)) :
    written (final (process env scans source) s) ≤ env.budget.maxTotalExtractedBytes := by
  obtain ⟨hunfinished, -, -, hdiscarded⟩ := process_tidy env scans source s rfl
  have hkept := hdiscarded h
  obtain ⟨t, hsteps, hfinal⟩ := process_steps env scans source s
  have hledger := hsteps.keeps (fun _ _ => WriteLedger.step) (writeLedger_begin source s)
  have hbudget := (hsteps.keeps (fun _ _ => KeptBudget.step) (keptBudget_begin source s)).2.bytes
  rw [hfinal] at hunfinished hkept ⊢
  have hbalance : t.usage.totalExtractedBytes + t.trace.discarded + t.trace.unfinished =
    written t := hledger
  have hcharged : t.usage.totalExtractedBytes ≤ env.budget.maxTotalExtractedBytes := hbudget
  change t.trace.unfinished = 0 at hunfinished
  change t.trace.discarded = 0 at hkept
  change written t ≤ _
  omega

instance (env : ExtractEnv) (t : ExtractState ω) : Decidable (NoneGivenUp env t) :=
  inferInstanceAs (Decidable (_ ∧ _))

/-! ### Members of two chunks -/

/-- An archive of three members of three bytes, of which two fit into the budget. -/
def pairsEnv : ExtractEnv :=
  { ExtractEnv.plain with
    budget := { ExtractionBudget.default with maxTotalExtractedBytes := 7 }
    isZipfile := fun content => .ok (content = [0x50, 0x4B])
    zipInfos := fun _ => .ok <| ["a", "b", "c"].map fun name => ⟨PyStr.ofString name, 0, 0, 3⟩
    zipOpen := fun _ _ => .ok ⟨[[0x41, 0x41], [0x42]], none⟩ }

/-- The third member does not get a byte into its file. -/
theorem pairs_within_budget :
    let t := final (process pairsEnv .silent [0x50, 0x4B]) (.fresh (containerJob [0x50, 0x4B]) ())
    t.trace.reads.length = 5 ∧ written t = 6 ∧
      written t ≤ pairsEnv.budget.maxTotalExtractedBytes :=
  ⟨by decide +kernel, by decide +kernel,
    written_within_budget pairsEnv .silent [0x50, 0x4B] _ (by decide +kernel)⟩

/-- An object that is no document goes to the handler of its kind. -/
lemma objectBody_of_kind (env : ExtractEnv) {recurse : Recurse ω} (source : Source) {kind : Kind}
    {s : ExtractState ω} (hclock : env.elapsed s.ticks ≤ env.budget.maxExtractionTimeSeconds)
    (hdepth : source.depth < env.budget.maxRecursionDepth)
    (hdocument : env.parseDocument source.content = .ok none)
    (hkind : kindOf env source.content = .ok (some kind)) :
    objectBody env scans recurse source s =
      processContainer env (childOf env scans recurse source) source.content kind
        (Write.tick.apply s) := by
  have hread (t : ExtractState ω) : readDocument env source.content t = .ok none t := by
    rw [readDocument, hdocument, ite_self]
    rfl
  rw [objectBody, bind_of_ok (expired_apply s), if_neg (by simpa using hclock),
    if_neg (not_le.2 hdepth), bind_of_ok (hread _), hkind]
  rfl

/-- An archive with few members is a loop over all of them. -/
lemma processZip_of_infos (env : ExtractEnv) {visit : Visit ω} {content : Bytes}
    {infos : List ZipInfo} {s : ExtractState ω} (hinfos : env.zipInfos content = .ok infos)
    (hcount : infos.length ≤ env.budget.maxChildrenPerObject) :
    processZip env visit content s =
      forEach (fun entry => do
        perform .discovered
        if ← canStartChild env then
          zipMember env visit content entry.1 entry.2
          return Flow.next
        else return Flow.stop) infos.zipIdx s := by
  rw [processZip, hinfos]
  change eachMember env infos _ s = _
  rw [eachMember, limitChildren, if_neg (not_lt.2 hcount), pure_bind_apply,
    List.take_of_length_le hcount]

/-! ### Two members of two mebibytes -/

section Abandoned

variable {chunk : Bytes} {event : String} {parentSize : ℕ} {s : ExtractState ω}

/-- A chunk has been read, and then the clock. -/
def chunkRead (chunk : Bytes) (size parentSize : ℕ) (s : ExtractState ω) : ExtractState ω :=
  Write.tick.apply ((Write.read ⟨chunk, size, parentSize, s.usage, s.ticks⟩).apply s)

/-- The state after a child whose second chunk runs into a limit. -/
def abandoned (chunk : Bytes) (parentSize : ℕ) (event : String) (s : ExtractState ω) :
    ExtractState ω :=
  Write.unlinked.apply <| (Write.event event).apply <| chunkRead chunk chunk.length parentSize <|
    (Write.wrote chunk.length).apply <| chunkRead chunk 0 parentSize <| Write.created.apply s

lemma written_abandoned :
    written (abandoned chunk parentSize event s) = written s + chunk.length := by
  simp [written, abandoned, chunkRead, Write.apply, Write.change, Write.note]

/-- A chunk that is in time. -/
lemma readChunks_cons {fault : Option Exc} {chunks : List Bytes} {content : Bytes}
    (hclock : ∀ n, env.elapsed n ≤ env.budget.maxExtractionTimeSeconds) :
    readChunks env parentSize fault (chunk :: chunks) content s =
      (match chunkLimit env s.usage parentSize content.length chunk with
        | some event => do
            limit event
            return none
        | none => do
            perform (.wrote chunk.length)
            readChunks env parentSize fault chunks (content ++ chunk) :
          Extract ω (Option Bytes)) (chunkRead chunk content.length parentSize s) := by
  simp only [readChunks, get_bind_apply, perform, modify_bind_apply]
  rw [bind_of_ok (expired_apply _), decide_eq_false (not_lt.2 (hclock _))]
  rfl

lemma readChunks_abandoned {fault : Option Exc}
    (hclock : ∀ n, env.elapsed n ≤ env.budget.maxExtractionTimeSeconds)
    (hfirst : chunkLimit env s.usage parentSize 0 chunk = none)
    (hsecond : chunkLimit env s.usage parentSize chunk.length chunk = some event) :
    readChunks env parentSize fault [chunk, chunk] [] s =
      .ok none ((Write.event event).apply <| chunkRead chunk chunk.length parentSize <|
        (Write.wrote chunk.length).apply <| chunkRead chunk 0 parentSize s) := by
  rw [readChunks_cons hclock, List.length_nil, hfirst]
  simp only [perform, modify_bind_apply]
  rw [readChunks_cons hclock, List.nil_append,
    show ((Write.wrote chunk.length).apply (chunkRead chunk 0 parentSize s)).usage = s.usage from
      rfl, hsecond]
  rfl

lemma materialize_abandoned {fault : Option Exc}
    (hclock : ∀ n, env.elapsed n ≤ env.budget.maxExtractionTimeSeconds)
    (hfile : s.files.length ≤ s.usage.childrenMaterialized)
    (hfirst : chunkLimit env s.usage parentSize 0 chunk = none)
    (hsecond : chunkLimit env s.usage parentSize chunk.length chunk = some event) :
    materialize env ⟨[chunk, chunk], fault⟩ parentSize s =
      .ok none (abandoned chunk parentSize event s) := by
  simp only [materialize, get_bind_apply]
  rw [if_neg (not_lt.2 hfile)]
  simp only [decode, pure_bind_apply, perform, modify_bind_apply, tryCatch_apply, writeChild]
  rw [bind_of_ok (readChunks_abandoned hclock
    (show chunkLimit env (Write.created.apply s).usage parentSize 0 chunk = none from hfirst)
    hsecond)]
  rfl

lemma child_abandoned {recurse : Recurse ω} {parent : InputArtifact} {fault : Option Exc}
    {name : PyStr} {index depth : ℕ} {relation : Relation}
    (hclock : ∀ n, env.elapsed n ≤ env.budget.maxExtractionTimeSeconds)
    (hcount : s.usage.childrenMaterialized < env.budget.maxTotalChildren)
    (hfile : s.files.length ≤ s.usage.childrenMaterialized)
    (hfirst : chunkLimit env s.usage parentSize 0 chunk = none)
    (hsecond : chunkLimit env s.usage parentSize chunk.length chunk = some event) :
    child env scans recurse parent ⟨⟨[chunk, chunk], fault⟩, name, index, relation⟩ depth
      parentSize s = .ok () (abandoned chunk parentSize event s) := by
  rw [child, bind_of_ok (canStartChild_of_lt hcount)]
  simp only [if_true, get_bind_apply]
  rw [bind_of_ok (materialize_abandoned hclock hfile hfirst hsecond)]
  rfl

end Abandoned

/-- A ZIP archive of two members, each of them two mebibytes of zeros compressed by bzip2. -/
def zerosZip : Bytes :=
  [80, 75, 3, 4, 46, 0, 0, 0, 12, 0, 0, 0, 33, 0, 126, 135, 137, 141, 48, 0, 0, 0, 0, 0, 32, 0, 1,
   0, 0, 0, 97, 66, 90, 104, 57, 49, 65, 89, 38, 83, 89, 126, 225, 145, 177, 0, 16, 16, 96, 0,
   192, 0, 0, 4, 0, 8, 32, 0, 48, 204, 5, 41, 166, 4, 3, 98, 8, 7, 139, 185, 34, 156, 40, 72, 63,
   112, 200, 216, 128, 80, 75, 3, 4, 46, 0, 0, 0, 12, 0, 0, 0, 33, 0, 126, 135, 137, 141, 48, 0,
   0, 0, 0, 0, 32, 0, 1, 0, 0, 0, 98, 66, 90, 104, 57, 49, 65, 89, 38, 83, 89, 126, 225, 145, 177,
   0, 16, 16, 96, 0, 192, 0, 0, 4, 0, 8, 32, 0, 48, 204, 5, 41, 166, 4, 3, 98, 8, 7, 139, 185, 34,
   156, 40, 72, 63, 112, 200, 216, 128, 80, 75, 1, 2, 46, 3, 46, 0, 0, 0, 12, 0, 0, 0, 33, 0, 126,
   135, 137, 141, 48, 0, 0, 0, 0, 0, 32, 0, 1, 0, 0, 0, 0, 0, 0, 0, 0, 0, 0, 0, 128, 1, 0, 0, 0,
   0, 97, 80, 75, 1, 2, 46, 3, 46, 0, 0, 0, 12, 0, 0, 0, 33, 0, 126, 135, 137, 141, 48, 0, 0, 0,
   0, 0, 32, 0, 1, 0, 0, 0, 0, 0, 0, 0, 0, 0, 0, 0, 128, 1, 79, 0, 0, 0, 98, 80, 75, 5, 6, 0, 0,
   0, 0, 2, 0, 2, 0, 94, 0, 0, 0, 158, 0, 0, 0, 0, 0]

def mebibyte : Bytes := List.replicate (1024 * 1024) 0

/-- The directory entry of a member of `zerosZip`. -/
def zerosInfo (name : String) : ZipInfo := ⟨PyStr.ofString name, 0, 0x1800000, 2 * 1024 * 1024⟩

/-- A server that allows a mebibyte and a half in all, and children of 5000 times the size. -/
def zerosEnv : ExtractEnv :=
  { ExtractEnv.plain with
    budget :=
      { ExtractionBudget.default with
        maxTotalExtractedBytes := 1536 * 1024
        maxExpansionRatio := 5000 }
    isZipfile := fun _ => .ok true
    zipInfos := fun _ => .ok [zerosInfo "a", zerosInfo "b"]
    zipOpen := fun _ _ => .ok ⟨[mebibyte, mebibyte], none⟩ }

/-- The second chunk of each member exceeds the budget. -/
lemma zeros_chunkLimit {usage : ExtractionUsage} (hcharged : usage.totalExtractedBytes = 0) :
    chunkLimit zerosEnv usage zerosZip.length 0 mebibyte = none ∧
      chunkLimit zerosEnv usage zerosZip.length mebibyte.length mebibyte =
        some "EXTRACTION_BYTE_BUDGET_EXHAUSTED" := by
  have hlength : mebibyte.length = 1024 * 1024 := List.length_replicate
  have hsize : zerosZip.length = 274 := by decide +kernel
  rw [hsize]
  norm_num [chunkLimit, hcharged, hlength, zerosEnv, ExtractionBudget.default]

/-- A member of the archive is abandoned after its first chunk. -/
lemma zeros_member {recurse : Recurse Unit} {parent : InputArtifact} {name : String} {index : ℕ}
    {s : ExtractState Unit} (hname : name ∈ ["a", "b"])
    (hcount : s.usage.childrenMaterialized = 0)
    (hfiles : s.files = []) (hcharged : s.usage.totalExtractedBytes = 0) :
    zipMember zerosEnv (childOf zerosEnv .silent recurse ⟨parent, 0, zerosZip⟩) zerosZip
        (zerosInfo name) index s =
      .ok () (abandoned mebibyte zerosZip.length "EXTRACTION_BYTE_BUDGET_EXHAUSTED" s) := by
  have hsafe : safeName zerosEnv (zerosInfo name).filename = true := by
    rcases List.mem_pair.1 hname with rfl | rfl <;> decide +kernel
  obtain ⟨hfirst, hsecond⟩ := zeros_chunkLimit hcharged
  have hlink : isZipLink (zerosInfo name) = false := by simp [isZipLink, zerosInfo]
  rw [zipMember, if_neg (by simp [zerosInfo]), hsafe, if_neg (by decide), hlink, if_neg (by decide),
    if_neg (by simp [zerosInfo, zerosEnv, ExtractionBudget.default])]
  exact child_abandoned (fun _ => Nat.cast_nonneg _) (by rw [hcount]; decide)
    (by rw [hfiles, hcount]; decide) hfirst hsecond

/-- Nothing has been materialised. -/
structure Untouched (s : ExtractState Unit) : Prop where
  count : s.usage.childrenMaterialized = 0
  files : s.files = []
  charged : s.usage.totalExtractedBytes = 0

/-- One pass of the loop over the members. -/
def zerosPass (recurse : Recurse Unit) (parent : InputArtifact) (entry : ZipInfo × ℕ) :
    Extract Unit Flow := do
  perform .discovered
  if ← canStartChild zerosEnv then
    zipMember zerosEnv (childOf zerosEnv .silent recurse ⟨parent, 0, zerosZip⟩) zerosZip
      entry.1 entry.2
    return .next
  else return .stop

/-- Each pass writes a mebibyte and leaves nothing behind. -/
lemma zeros_pass (recurse : Recurse Unit) (parent : InputArtifact) (index : ℕ) {name : String}
    {s : ExtractState Unit} (hname : name ∈ ["a", "b"]) (h : Untouched s) :
    ∃ t, Untouched t ∧ written t = written s + mebibyte.length ∧
      zerosPass recurse parent (zerosInfo name, index) s = .ok .next t := by
  have hdiscovered : Untouched ((Write.discovered).apply s) := ⟨h.count, h.files, h.charged⟩
  refine ⟨abandoned mebibyte zerosZip.length "EXTRACTION_BYTE_BUDGET_EXHAUSTED"
    ((Write.discovered).apply s), ⟨?_, h.files, ?_⟩, written_abandoned, ?_⟩
  · simpa [abandoned, chunkRead, Write.apply, Write.change] using h.count
  · simpa [abandoned, chunkRead, Write.apply, Write.change] using h.charged
  · simp only [zerosPass, perform, modify_bind_apply]
    rw [bind_of_ok (canStartChild_of_lt (by rw [hdiscovered.count]; decide))]
    simp only [if_true]
    rw [bind_of_ok (zeros_member hname hdiscovered.count hdiscovered.files hdiscovered.charged)]
    rfl

/-- Two mebibytes are written under a budget of one and a half: the chunk of the first member is
forgotten with its file. -/
theorem discarded_members_exceed_budget :
    ¬written (final (process zerosEnv .silent zerosZip) (.fresh (containerJob zerosZip) ())) ≤
      zerosEnv.budget.maxTotalExtractedBytes := by
  let start : ExtractState Unit := begin zerosZip (.fresh (containerJob zerosZip) ())
  let parent := start.job.inputArtifact
  have hkind : kindOf zerosEnv zerosZip = .ok (some .zip) := by decide +kernel
  obtain ⟨s, hs, hfirst, hpass⟩ := zeros_pass (processObject zerosEnv .silent 3) parent 0
    List.mem_cons_self (⟨rfl, rfl, rfl⟩ : Untouched (Write.tick.apply start))
  obtain ⟨t, -, hsecond, hpass'⟩ := zeros_pass (processObject zerosEnv .silent 3) parent 1
    (List.mem_cons_of_mem _ List.mem_cons_self) hs
  have hobject : processObject zerosEnv .silent (recursionFuel zerosEnv) 0 parent zerosZip start =
      .ok () t := by
    refine (objectBody_of_kind zerosEnv ⟨parent, 0, zerosZip⟩ (Nat.cast_nonneg _) (by decide)
      rfl hkind).trans ?_
    refine (processZip_of_infos zerosEnv rfl (by decide)).trans ?_
    change forEach (zerosPass (processObject zerosEnv .silent 3) parent)
      [(zerosInfo "a", 0), (zerosInfo "b", 1)] (Write.tick.apply start) = _
    rw [forEach_cons_next hpass, forEach_cons_next hpass', forEach_nil]
  have hbody : ∃ u, processBody zerosEnv .silent zerosZip start = .ok () u ∧
      written u = written t := by
    rw [processBody, get_bind_apply, bind_of_ok hobject, conclude, get_bind_apply]
    split
    · exact ⟨_, rfl, rfl⟩
    · exact ⟨_, rfl, rfl⟩
  obtain ⟨u, hbody, hwritten⟩ := hbody
  rw [final_of_ok (process_of_ok hbody)]
  change ¬written u ≤ 1536 * 1024
  have hlength : mebibyte.length = 1024 * 1024 := List.length_replicate
  rw [hwritten, hsecond, hfirst, hlength]
  change ¬0 + 1024 * 1024 + 1024 * 1024 ≤ 1536 * 1024
  decide

end ContainerAnalyzer

end AVBox
