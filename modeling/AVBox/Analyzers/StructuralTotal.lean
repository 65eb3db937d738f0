import AVBox.Analyzers.AdfVolumes
import AVBox.Analyzers.FatRows
import AVBox.Analyzers.Structural
import Mathlib.Data.Finset.Prod

/-!
# What the structural validator raises

The loops of the validators end on every input.  What is left are the two ways in which `_validate`
raises (`validate_returns_iff`): the walk through the directories of an ADF or FAT image runs out of
call frames, or `_iso_directories` comes to a record of length zero when the block size is zero.
-/

namespace AVBox

namespace StructuralValidator

open Binary Fallible Walk

/-! ## LHA -/

section Lha

variable {data : Bytes} {maxNodes : ℕ}

/-- A pass breaks out of the loop, or goes on behind the member. -/
lemma lhaMember_advances (state : LhaState) :
    (lhaMember data state).stopped = true ∨
      state.pos < (lhaMember data state).pos ∧ (lhaMember data state).pos ≤ data.length := by
  unfold lhaMember
  simp only []
  split
  · exact .inl rfl
  split
  · exact .inl rfl
  split
  · exact .inl rfl
  split
  · exact .inl rfl
  split
  · exact .inl rfl
  · next hfits =>
      refine .inr ⟨?_, ?_⟩ <;> simp only [] <;> omega

/-- The loop over the members ends. -/
lemma lhaMembers_ok (maxNodes : ℕ) (data : Bytes) :
    ∃ final, lhaMembers maxNodes data = .ok final ∧ lhaGoesOn maxNodes data final = false ∧
      Loop.Reaches (ε := Exc) (lhaGoesOn maxNodes data) (fun state => .ok (lhaMember data state))
        ⟨0, false, 0, [], []⟩ final := by
  have hcases := @Loop.run_cases LhaState Exc Exc.unending (lhaGoesOn maxNodes data)
    (fun state => .ok (lhaMember data state)) (fun _ => True)
    (fun state => if state.stopped then 0 else data.length + 1 - state.pos) ?_ (data.length + 1)
    ⟨0, false, 0, [], []⟩ trivial (by simp) ?_
  · rcases hcases with hok | ⟨last, e, -, -, -, hfail⟩
    · exact hok
    · cases hfail
  · rintro s s' - ⟨hgoes, hbody⟩
    obtain rfl := Except.ok.inj hbody
    simp only [lhaGoesOn, decide_eq_true_eq] at hgoes
    refine ⟨trivial, ?_⟩
    rw [hgoes.1]
    rcases @lhaMember_advances data s with hstop | ⟨hlt, hle⟩
    · rw [hstop]
      simp only [if_true, Bool.false_eq_true, if_false]
      omega
    · cases (lhaMember data s).stopped <;> simp only [if_true, Bool.false_eq_true, if_false] <;>
        omega
  · rintro s - hgoes
    simp only [lhaGoesOn, decide_eq_true_eq] at hgoes
    rw [hgoes.1]
    simp only [Bool.false_eq_true, if_false]
    omega

end Lha

/-! ## ISO 9660 -/

section Iso

variable {data : Bytes} {blockSize maxNodes : ℕ}

/-- A place in a directory at which a record starts, when every record before it is well formed. -/
inductive RecordAt (directory : Bytes) : ℕ → Prop
  | first : RecordAt directory 0
  | next {pos : ℕ} : RecordAt directory pos → 34 ≤ u8 directory pos →
      pos + u8 directory pos ≤ directory.length →
      33 + u8 (slice directory pos (pos + u8 directory pos)) 32 ≤ u8 directory pos →
      RecordAt directory (pos + u8 directory pos)

/-- There is a record of length zero in the directory. -/
def HasZeroRecord (directory : Bytes) : Prop :=
  ∃ pos < directory.length, RecordAt directory pos ∧ u8 directory pos = 0

/-- What a pass of the loop over the records of a directory keeps and changes. -/
structure IsoAdvances (blockSize : ℕ) (directory : Bytes) (scan scan' : IsoScan) : Prop where
  pos : scan'.stopped = true ∨ scan.pos < scan'.pos
  forward : scan.pos ≤ scan'.pos
  seen : scan'.state.seen = scan.state.seen
  pending : scan'.state.pending = scan.state.pending ∨
    scan.pos + 34 ≤ min scan'.pos directory.length ∧
      scan'.state.pending.length = scan.state.pending.length + 1
  boundary : blockSize = 0 → scan'.stopped = false → RecordAt directory scan.pos →
    RecordAt directory scan'.pos

lemma isoRecord_advances {directory : Bytes} {scan scan' : IsoScan}
    (h : isoRecord data blockSize directory scan = .ok scan') :
    IsoAdvances blockSize directory scan scan' := by
  unfold isoRecord at h
  simp only [] at h
  split at h
  · split at h
    · cases h
    · next hzero hblock =>
        obtain rfl := Except.ok.inj h
        have hlt : scan.pos < (scan.pos / blockSize + 1) * blockSize := by
          have := Nat.lt_div_mul_add (Nat.pos_of_ne_zero hblock) (a := scan.pos)
          rw [Nat.succ_mul]
          exact this
        exact ⟨.inr hlt, Nat.le_of_lt hlt, rfl, .inl rfl, fun hb => absurd hb hblock⟩
  split at h
  · obtain rfl := Except.ok.inj h
    exact ⟨.inl rfl, Nat.le_refl _, rfl, .inl rfl, fun _ hstop => by cases hstop⟩
  split at h
  · obtain rfl := Except.ok.inj h
    exact ⟨.inl rfl, Nat.le_refl _, rfl, .inl rfl, fun _ hstop => by cases hstop⟩
  · next hzero hbounds hname =>
      obtain rfl := Except.ok.inj h
      refine ⟨.inr (by simp only []; omega), Nat.le_add_right _ _, ?_, ?_, fun _ _ hat => ?_⟩
      · split <;> split <;> rfl
      · split
        · refine .inr ⟨by simp only []; omega, ?_⟩
          split <;> rfl
        · refine .inl ?_
          split <;> rfl
      · exact .next hat (by omega) (by omega) (by omega)

/-- The body of the loop fails only by dividing by a block size of zero. -/
lemma isoRecord_error {directory : Bytes} {scan : IsoScan} {e : Exc}
    (h : isoRecord data blockSize directory scan = .error e) :
    e = .zeroDivision ∧ blockSize = 0 ∧ u8 directory scan.pos = 0 := by
  unfold isoRecord at h
  simp only [] at h
  split at h
  · next hzero =>
      split at h
      · next hblock => exact ⟨(Except.error.inj h).symm, hblock, hzero⟩
      · cases h
  split at h
  · cases h
  split at h <;> cases h

/-- The loop over the records of a directory, run on a state. -/
abbrev ScanReaches (data : Bytes) (blockSize : ℕ) (directory : Bytes) (state : IsoState)
    (scan : IsoScan) : Prop :=
  Loop.Reaches (isoScanGoesOn directory) (isoRecord data blockSize directory) ⟨0, false, state⟩ scan

lemma scanReaches_invariant {directory : Bytes} {state : IsoState} {scan : IsoScan}
    (h : ScanReaches data blockSize directory state scan) :
    scan.state.seen = state.seen ∧
      scan.state.pending.length ≤ state.pending.length + min scan.pos directory.length ∧
      (blockSize = 0 → scan.stopped = false → RecordAt directory scan.pos) := by
  refine h.invariant (I := fun scan => scan.state.seen = state.seen ∧
    scan.state.pending.length ≤ state.pending.length + min scan.pos directory.length ∧
    (blockSize = 0 → scan.stopped = false → RecordAt directory scan.pos)) ?_ ?_
  · rintro s s' ⟨hseen, hpending, hat⟩ ⟨hgoes, hbody⟩
    have hadv := isoRecord_advances hbody
    simp only [isoScanGoesOn, decide_eq_true_eq] at hgoes
    refine ⟨hadv.seen.trans hseen, ?_, fun hb hstop => hadv.boundary hb hstop (hat hb hgoes.1)⟩
    have hforward := hadv.forward
    rcases hadv.pending with hsame | ⟨hroom, hmore⟩
    · rw [hsame]
      omega
    · omega
  · exact ⟨rfl, Nat.le_add_right _ _, fun _ _ => .first⟩

/-- A place at which a record starts is one the loop comes to. -/
lemma scanReaches_of_recordAt {directory : Bytes} {state : IsoState} {pos : ℕ}
    (h : RecordAt directory pos) :
    ∃ scan, ScanReaches data blockSize directory state scan ∧ scan.stopped = false ∧
      scan.pos = pos := by
  induction h with
  | first => exact ⟨_, .refl, rfl, rfl⟩
  | @next pos _ hlength hfits hname ih =>
      obtain ⟨scan, hreach, hstop, rfl⟩ := ih
      have hgoes : isoScanGoesOn directory scan = true := by
        simp only [isoScanGoesOn, decide_eq_true_eq]
        exact ⟨hstop, by omega⟩
      have hbody : ∃ state', isoRecord data blockSize directory scan =
          .ok ⟨scan.pos + u8 directory scan.pos, false, state'⟩ := by
        unfold isoRecord
        simp only []
        rw [if_neg (by omega), if_neg (by omega), if_neg (by omega)]
        exact ⟨_, rfl⟩
      obtain ⟨state', hbody⟩ := hbody
      exact ⟨_, hreach.tail ⟨hgoes, hbody⟩, rfl, rfl⟩

/-- The loop over the records ends, unless the block size is zero and so is a record's length. -/
lemma isoRecords_cases (directory : Bytes) (state : IsoState) :
    (∃ state', isoRecords data blockSize directory state = .ok state' ∧
        state'.seen = state.seen ∧
        state'.pending.length ≤ state.pending.length + directory.length ∧
        ¬(blockSize = 0 ∧ HasZeroRecord directory)) ∨
      isoRecords data blockSize directory state = .error .zeroDivision ∧ blockSize = 0 ∧
        HasZeroRecord directory := by
  have hcases := @Loop.run_cases IsoScan Exc Exc.unending (isoScanGoesOn directory)
    (isoRecord data blockSize directory) (fun _ => True)
    (fun scan => if scan.stopped then 0 else directory.length - scan.pos) ?_ directory.length
    ⟨0, false, state⟩ trivial (by simp) ?_
  · rcases hcases with ⟨final, hrun, hstop, hreach⟩ | ⟨last, e, hrun, hreach, hgoes, hfail⟩
    · obtain ⟨hseen, hpending, -⟩ := scanReaches_invariant hreach
      refine .inl ⟨final.state, ?_, hseen, by omega, ?_⟩
      · rw [isoRecords, hrun]
        rfl
      · rintro ⟨hblock, pos, hpos, hat, hzero⟩
        obtain ⟨scan, hscan, hgoing, rfl⟩ := @scanReaches_of_recordAt data blockSize _ state _ hat
        refine Loop.body_ne_error (e := .zeroDivision) hreach hstop hscan ?_ ?_
        · simp only [isoScanGoesOn, decide_eq_true_eq]
          exact ⟨hgoing, hpos⟩
        · unfold isoRecord
          simp only []
          rw [if_pos hzero, if_pos hblock]
    · obtain ⟨rfl, hblock, hzero⟩ := isoRecord_error hfail
      obtain ⟨-, -, hat⟩ := scanReaches_invariant hreach
      simp only [isoScanGoesOn, decide_eq_true_eq] at hgoes
      refine .inr ⟨?_, hblock, last.pos, hgoes.2, hat hblock hgoes.1, hzero⟩
      rw [isoRecords, hrun]
      rfl
  · rintro s s' - ⟨hgoes, hbody⟩
    have hadv := isoRecord_advances hbody
    simp only [isoScanGoesOn, decide_eq_true_eq] at hgoes
    refine ⟨trivial, ?_⟩
    rw [hgoes.1]
    rcases hadv.pos with hstop | hlt
    · rw [hstop]
      simp only [if_true, Bool.false_eq_true, if_false]
      omega
    · cases s'.stopped <;> simp only [if_true, Bool.false_eq_true, if_false] <;> omega
  · rintro s - hgoes
    simp only [isoScanGoesOn, decide_eq_true_eq] at hgoes
    rw [hgoes.1]
    simp only [Bool.false_eq_true, if_false]
    omega

/-- The keys of records are pairs of 32-bit words. -/
def Word32 (key : ℕ × ℕ) : Prop := key.1 < 2 ^ 32 ∧ key.2 < 2 ^ 32

lemma isoKey_word32 (record : Bytes) : Word32 (isoKey record) := ⟨le32_lt _ _, le32_lt _ _⟩

lemma length_le_of_pairs {bound : ℕ} {keys : List (ℕ × ℕ)} (hnodup : keys.Nodup)
    (hkeys : ∀ key ∈ keys, key.1 < bound ∧ key.2 < bound) : keys.length ≤ bound * bound := by
  have hsub : keys.toFinset ⊆ Finset.range bound ×ˢ Finset.range bound := by
    intro key hkey
    obtain ⟨h₁, h₂⟩ := hkeys key (List.mem_toFinset.1 hkey)
    exact Finset.mem_product.2 ⟨Finset.mem_range.2 h₁, Finset.mem_range.2 h₂⟩
  have hcard := Finset.card_le_card hsub
  rwa [List.toFinset_card_of_nodup hnodup, Finset.card_product, Finset.card_range] at hcard

lemma length_le_of_word32 {keys : List (ℕ × ℕ)} (hnodup : keys.Nodup)
    (hwords : ∀ key ∈ keys, Word32 key) : keys.length ≤ 2 ^ 64 := by
  rw [show 2 ^ 64 = 2 ^ 32 * 2 ^ 32 from rfl]
  exact length_le_of_pairs hnodup hwords

/-- What the loop over the pending directories remembers is sound. -/
structure IsoSound (state : IsoState) : Prop where
  nodup : state.seen.Nodup
  words : ∀ key ∈ state.seen, Word32 key

/-- How a pass of the loop over the pending directories goes. -/
lemma isoStep_cases {state : IsoState} (hpending : state.pending ≠ []) (hsound : IsoSound state) :
    (∃ state', isoStep data blockSize state = .ok state' ∧ IsoSound state' ∧
        (blockSize = 0 → ∀ key, isoNext data blockSize state = some key →
          ¬HasZeroRecord (isoContent data blockSize key)) ∧
        (2 ^ 64 - state'.seen.length) * (data.length + 1) + state'.pending.length <
          (2 ^ 64 - state.seen.length) * (data.length + 1) + state.pending.length) ∨
      ∃ key, isoNext data blockSize state = some key ∧ blockSize = 0 ∧
        HasZeroRecord (isoContent data blockSize key) ∧
        isoStep data blockSize state = .error .zeroDivision := by
  unfold isoStep isoNext
  cases hp : state.pending with
  | nil => exact absurd hp hpending
  | cons record pending =>
      simp only []
      by_cases hseen : isoKey record ∈ state.seen
      · rw [if_pos hseen]
        refine .inl ⟨_, rfl, ⟨hsound.nodup, hsound.words⟩, fun _ key hkey => ?_, ?_⟩
        · rw [if_pos (.inl hseen)] at hkey
          cases hkey
        · simp only [List.length_cons]
          omega
      rw [if_neg hseen]
      have hnodup : (isoKey record :: state.seen).Nodup := List.nodup_cons.2 ⟨hseen, hsound.nodup⟩
      have hwords : ∀ key ∈ isoKey record :: state.seen, Word32 key := by
        intro key hkey
        rcases List.mem_cons.1 hkey with rfl | hkey
        · exact isoKey_word32 record
        · exact hsound.words key hkey
      have hroom := length_le_of_word32 hnodup hwords
      rw [List.length_cons] at hroom
      generalize 2 ^ 64 = bound at hroom ⊢
      -- one key fewer is left to see, and that pays for all the records of a directory
      have hless : (bound - (state.seen.length + 1)) * (data.length + 1) + (data.length + 1) =
          (bound - state.seen.length) * (data.length + 1) := by
        rw [← Nat.succ_mul]
        congr 1
        omega
      by_cases hout : OutOfFile data blockSize (isoKey record)
      · rw [if_pos hout]
        refine .inl ⟨_, rfl, ⟨hnodup, hwords⟩, fun _ key hkey => ?_, ?_⟩
        · rw [if_pos (.inr hout)] at hkey
          cases hkey
        · simp only [IsoState.report, List.length_cons]
          omega
      rw [if_neg hout, if_neg (not_or.2 ⟨hseen, hout⟩)]
      rcases @isoRecords_cases data blockSize
        (isoContent data blockSize (isoKey record))
        { state with pending := pending, seen := isoKey record :: state.seen } with
        ⟨state', hok, hkeep, hmore, hnone⟩ | ⟨herror, hblock, hzero⟩
      · refine .inl ⟨state', hok, ⟨?_, ?_⟩, fun hblock key hkey hzero => ?_, ?_⟩
        · rw [hkeep]
          exact hnodup
        · rw [hkeep]
          exact hwords
        · obtain rfl := Option.some.inj hkey
          exact hnone ⟨hblock, hzero⟩
        · have hcontent : (isoContent data blockSize (isoKey record)).length ≤ data.length := by
            rw [isoContent, length_slice]
            omega
          rw [hkeep]
          simp only [List.length_cons] at hmore ⊢
          omega
      · exact .inr ⟨_, rfl, hblock, hzero, herror⟩

/-- The loop over the pending directories comes to a directory and reads it. -/
def ReadsDirectory (data : Bytes) (blockSize maxNodes : ℕ) (root : Bytes) (key : ℕ × ℕ) : Prop :=
  ∃ state, Loop.Reaches (isoGoesOn maxNodes) (isoStep data blockSize) ⟨[root], [], 0, []⟩ state ∧
    isoGoesOn maxNodes state = true ∧ isoNext data blockSize state = some key

lemma isoSound_of_reaches {root : Bytes} {state : IsoState}
    (h : Loop.Reaches (isoGoesOn maxNodes) (isoStep data blockSize) ⟨[root], [], 0, []⟩ state) :
    IsoSound state := by
  refine h.invariant (I := IsoSound) ?_ ⟨.nil, fun _ hkey => absurd hkey List.not_mem_nil⟩
  rintro s s' hsound ⟨hgoes, hbody⟩
  simp only [isoGoesOn, decide_eq_true_eq] at hgoes
  rcases @isoStep_cases data blockSize _ hgoes.1 hsound with
    ⟨state', hok, hsound', -, -⟩ | ⟨key, -, -, -, herror⟩
  · obtain rfl := Except.ok.inj (hok.symm.trans hbody)
    exact hsound'
  · cases herror.symm.trans hbody

/-- `_iso_directories` returns, unless it divides by a block size of zero. -/
lemma isoDirectories_ok_iff (root : Bytes) :
    (∃ findings, isoDirectories data blockSize maxNodes root = .ok findings) ↔
      ¬(blockSize = 0 ∧ ∃ key, ReadsDirectory data blockSize maxNodes root key ∧
        HasZeroRecord (isoContent data blockSize key)) := by
  have hcases := @Loop.run_cases IsoState Exc Exc.unending (isoGoesOn maxNodes)
    (isoStep data blockSize) IsoSound
    (fun state => (2 ^ 64 - state.seen.length) * (data.length + 1) + state.pending.length) ?_
    (2 ^ 64 * (data.length + 1) + 1) ⟨[root], [], 0, []⟩
    ⟨.nil, fun _ hkey => absurd hkey List.not_mem_nil⟩ (by simp) ?_
  · unfold isoDirectories
    rcases hcases with ⟨final, hrun, hstop, hreach⟩ | ⟨last, e, hrun, hreach, hgoes, hfail⟩
    · refine iff_of_true ?_ ?_
      · rw [hrun]
        simp only [bind, Except.bind]
        split <;> exact ⟨_, rfl⟩
      · rintro ⟨hblock, key, ⟨state, hstate, hgoes, hnext⟩, hzero⟩
        have hsound := isoSound_of_reaches hstate
        refine Loop.body_ne_error (e := .zeroDivision) hreach hstop hstate hgoes ?_
        simp only [isoGoesOn, decide_eq_true_eq] at hgoes
        rcases @isoStep_cases data blockSize _ hgoes.1 hsound with
          ⟨-, -, -, hnone, -⟩ | ⟨-, -, -, -, herror⟩
        · exact absurd hzero (hnone hblock key hnext)
        · exact herror
    · refine iff_of_false ?_ ?_
      · rw [hrun]
        rintro ⟨findings, h⟩
        cases h
      · simp only [isoGoesOn, decide_eq_true_eq] at hgoes
        rcases @isoStep_cases data blockSize _ hgoes.1
          (isoSound_of_reaches hreach) with ⟨state', hok, -⟩ | ⟨key, hnext, hblock, hzero, -⟩
        · cases hfail.symm.trans hok
        · refine not_not.2 ⟨hblock, key, ⟨last, hreach, ?_, hnext⟩, hzero⟩
          simp only [isoGoesOn, decide_eq_true_eq]
          exact hgoes
  · rintro s s' hsound ⟨hgoes, hbody⟩
    simp only [isoGoesOn, decide_eq_true_eq] at hgoes
    rcases @isoStep_cases data blockSize _ hgoes.1 hsound with
      ⟨state', hok, hsound', -, hless⟩ | ⟨key, -, -, -, herror⟩
    · obtain rfl := Except.ok.inj (hok.symm.trans hbody)
      exact ⟨hsound', hless⟩
    · cases herror.symm.trans hbody
  · rintro s - hgoes
    simp only [isoGoesOn, decide_eq_true_eq] at hgoes
    have := List.length_pos_iff.2 hgoes.1
    omega

end Iso

/-! ## ADF and FAT -/

section Walks

variable {maxNodes frames : ℕ} {data : Bytes}

lemma raises_adfFileBlocks {variant : AdfVariant} {key wanted : ℕ} {pointers : List ℕ}
    {total : ℕ} {state : AdfState} :
    Raises IsDiskImage (adfFileBlocks data variant key wanted pointers total state) := by
  induction pointers generalizing total state with
  | nil => exact .ite (fun _ => .error rfl) fun _ => .ok _
  | cons pointer rest ih =>
      refine .ite (fun _ => .error rfl) fun _ => .bind Adf.raises_block fun payload _ => ?_
      exact .ite (fun _ => .error rfl) fun _ => .ite (fun _ => .ok _) fun _ => ih

lemma raises_adfLook {variant : AdfVariant} {state : AdfState} {key : ℕ} :
    Raises IsDiskImage (adfLook maxNodes data variant state key) := by
  refine .ite (fun _ => .error rfl) fun _ => .ite (fun _ => .error rfl) fun _ => ?_
  refine .bind Adf.raises_block fun header _ => .ite (fun _ => .error rfl) fun _ => ?_
  refine .ite (fun _ => .ok _) fun _ => .ite (fun _ => ?_) fun _ => .ok _
  exact .bind raises_adfFileBlocks fun _ _ => .ok _

/-- The walk through an ADF image never has more directories open than there are call frames. -/
def AdfShallow (maxNodes frames : ℕ) (data : Bytes) (variant : AdfVariant) : Prop :=
  OpenAtMost (adfLook maxNodes data variant) frames ⟨0, [Adf.rootKey]⟩
    (Adf.keys data (Adf.blockAt data Adf.rootKey))

lemma walkAdf_eq {variant : AdfVariant} :
    walkAdf maxNodes data variant frames =
      walk Exc.tooDeep (adfLook maxNodes data variant) frames ⟨0, [Adf.rootKey]⟩
        (Adf.keys data (Adf.blockAt data Adf.rootKey)) >>= fun _ => .ok () := rfl

/-- How the walk through an ADF image ends. -/
lemma walkAdf_cases (variant : AdfVariant) :
    AdfShallow maxNodes frames data variant ∧ (walkAdf maxNodes data variant frames = .ok () ∨
        ∃ e, walkAdf maxNodes data variant frames = .error e ∧ IsDiskImage e) ∨
      ¬AdfShallow maxNodes frames data variant ∧
        walkAdf maxNodes data variant frames = .error Exc.tooDeep := by
  have hdeep := @walk_eq_deep_iff AdfState ℕ Exc Exc.tooDeep (adfLook maxNodes data variant)
    (fun state key h => by cases raises_adfLook _ h) frames ⟨0, [Adf.rootKey]⟩
    (Adf.keys data (Adf.blockAt data Adf.rootKey))
  rw [walkAdf_eq]
  cases hwalk : walk Exc.tooDeep (adfLook maxNodes data variant) frames ⟨0, [Adf.rootKey]⟩
      (Adf.keys data (Adf.blockAt data Adf.rootKey)) with
  | ok final =>
      rw [hwalk] at hdeep
      refine .inl ⟨?_, .inl rfl⟩
      by_contra h
      cases hdeep.2 h
  | error e =>
      by_cases hshallow : AdfShallow maxNodes frames data variant
      · refine .inl ⟨hshallow, .inr ⟨e, rfl, ?_⟩⟩
        rcases @error_cases AdfState ℕ Exc Exc.tooDeep (adfLook maxNodes data variant)
          (fun _ => True) (fun _ _ _ _ => trivial) frames _ _ e (fun _ _ => trivial) hwalk with
          ⟨state, key, -, hfail⟩ | ⟨-, hopen⟩
        · exact raises_adfLook _ hfail
        · exact absurd hshallow hopen
      · rw [hwalk] at hdeep
        exact .inr ⟨hshallow, by rw [hdeep.2 hshallow]; rfl⟩

/-- `_adf` returns, unless its walk runs out of call frames. -/
lemma adf_ok_iff {limits : StructuralLimits} :
    (∃ v, adf limits frames data = .ok v) ↔ ∀ variant, Adf.variantOf data = some variant →
      AdfShallow limits.maxNodes frames data variant := by
  unfold adf
  simp only []
  cases hvariant : Adf.variantOf data with
  | none => exact iff_of_true ⟨_, rfl⟩ fun _ h => by cases h
  | some variant =>
      simp only [Option.some.injEq, forall_eq']
      rcases @walkAdf_cases limits.maxNodes frames data variant with
        ⟨hshallow, hok | ⟨e, he, hkind⟩⟩ | ⟨hshallow, he⟩
      · rw [hok]
        exact iff_of_true ⟨_, rfl⟩ hshallow
      · rw [he]
        simp only []
        rw [if_pos (show e.family = .diskImageError from hkind)]
        exact iff_of_true ⟨_, rfl⟩ hshallow
      · rw [he]
        refine iff_of_false ?_ hshallow
        rintro ⟨v, h⟩
        cases h

/-- The walk through a FAT volume never has more directories open than there are call frames. -/
def FatShallow (maxNodes frames : ℕ) (data : Bytes) (vol : Fat.Volume) : Prop :=
  OpenAtMost (fatLook maxNodes data vol) frames (fatRoot maxNodes data vol).2
    (fatRows maxNodes [] (fatRoot maxNodes data vol).1)

lemma fatLook_ok {vol : Fat.Volume} (state : FatState) (item : FatItem) :
    ∃ turn, fatLook maxNodes data vol state item = .ok turn := by
  unfold fatLook
  split
  · exact ⟨_, rfl⟩
  split
  · split <;> exact ⟨_, rfl⟩
  · exact ⟨_, rfl⟩

lemma walkFat_ok_iff {vol : Fat.Volume} :
    (∃ final, walkFat maxNodes data vol frames = .ok final) ↔
      FatShallow maxNodes frames data vol := by
  have hlook : ∀ state item, fatLook maxNodes data vol state item ≠ .error Exc.tooDeep := by
    intro state item h
    obtain ⟨turn, hturn⟩ := @fatLook_ok maxNodes data vol state item
    cases hturn.symm.trans h
  have hdeep := @walk_eq_deep_iff FatState FatItem Exc Exc.tooDeep (fatLook maxNodes data vol)
    hlook frames (fatRoot maxNodes data vol).2 (fatRows maxNodes [] (fatRoot maxNodes data vol).1)
  show (∃ final, walk _ _ _ _ _ = _) ↔ _
  constructor
  · rintro ⟨final, hok⟩
    by_contra h
    cases hok.symm.trans (hdeep.2 h)
  · intro hshallow
    cases hwalk : walk Exc.tooDeep (fatLook maxNodes data vol) frames
        (fatRoot maxNodes data vol).2 (fatRows maxNodes [] (fatRoot maxNodes data vol).1) with
    | ok final => exact ⟨final, hwalk⟩
    | error e =>
        rcases @error_cases FatState FatItem Exc Exc.tooDeep (fatLook maxNodes data vol)
          (fun _ => True) (fun _ _ _ _ => trivial) frames _ _ e (fun _ _ => trivial) hwalk with
          ⟨state, item, -, hfail⟩ | ⟨-, hopen⟩
        · obtain ⟨turn, hturn⟩ := @fatLook_ok maxNodes data vol state item
          cases hturn.symm.trans hfail
        · exact absurd hshallow hopen

/-- `_fat` returns, unless its walk runs out of call frames. -/
lemma fat_ok_iff {limits : StructuralLimits} :
    (∃ v, fat limits frames data = .ok v) ↔
      (BpbValid (Fat.Volume.ofBoot data) data.length →
        FatShallow limits.maxNodes frames data (Fat.Volume.ofBoot data)) := by
  unfold fat
  simp only []
  split
  · next hinvalid => exact iff_of_true ⟨_, rfl⟩ fun h => absurd h hinvalid
  · next hvalid =>
      rw [← walkFat_ok_iff]
      constructor
      · rintro ⟨v, h⟩ -
        obtain ⟨final, hfinal, -⟩ := bind_eq_ok.1 h
        exact ⟨final, hfinal⟩
      · intro h
        obtain ⟨final, hfinal⟩ := h (not_not.1 hvalid)
        exact ⟨_, bind_eq_ok.2 ⟨final, hfinal, rfl⟩⟩

end Walks

/-! ## The validator -/

section Validator

variable {data : Bytes}

/-- The exception is a `PartitionTableError`. -/
def IsPartitionTable (exc : Exc) : Prop := exc.family = .partitionTableError

lemma raises_partitions (maxPartitions : ℕ) :
    Raises IsPartitionTable (Partitions.parse data maxPartitions) := by
  refine .bind ?_ fun table _ => ?_
  · unfold Partitions.parseRdb
    split
    · exact .ok _
    · exact .ite (fun _ => .error rfl) fun _ => .ite (fun _ => .error rfl) fun _ => .ok _
  · cases table with
    | some table => exact .ok _
    | none =>
        refine .ite (fun _ => .ok _) fun _ => .ite (fun _ => .ok _) fun _ => ?_
        exact .ite (fun _ => .error rfl) fun _ => .ok _

lemma rdb_ok (data : Bytes) : ∃ v, rdb data = .ok v := by
  unfold rdb
  simp only []
  split
  · exact ⟨_, rfl⟩
  · exact ⟨_, rfl⟩
  · next exc hexc =>
      rw [if_pos (show exc.family = .partitionTableError from raises_partitions 256 exc hexc)]
      exact ⟨_, rfl⟩

lemma lha_ok (limits : StructuralLimits) (data : Bytes) : ∃ v, lha limits data = .ok v := by
  obtain ⟨final, hfinal, -⟩ := lhaMembers_ok limits.maxNodes data
  exact ⟨_, bind_eq_ok.2 ⟨final, hfinal, rfl⟩⟩

/-- `_iso` comes to a directory record of length zero, and the block size is zero. -/
def IsoDivides (limits : StructuralLimits) (data : Bytes) : Prop :=
  ∃ pvd, (volumeDescriptors data).pvd = some pvd ∧ le16 pvd 128 = 0 ∧
    ∃ key, ReadsDirectory data 0 limits.maxNodes (slice pvd 156 190) key ∧
      HasZeroRecord (isoContent data 0 key)

lemma iso_ok_iff (limits : StructuralLimits) :
    (∃ v, iso limits data = .ok v) ↔ ¬IsoDivides limits data := by
  unfold iso IsoDivides
  simp only []
  cases hpvd : (volumeDescriptors data).pvd with
  | none =>
      refine iff_of_true ⟨_, rfl⟩ ?_
      rintro ⟨pvd, h, -⟩
      cases h
  | some pvd =>
      have hbelow := @isoDirectories_ok_iff data (le16 pvd 128) limits.maxNodes (slice pvd 156 190)
      constructor
      · rintro ⟨v, h⟩ ⟨pvd', hpvd', hblock, hdivides⟩
        obtain rfl := Option.some.inj hpvd'
        obtain ⟨findings, hfindings, -⟩ := bind_eq_ok.1 h
        rw [hblock] at hbelow
        exact hbelow.1 ⟨findings, hblock ▸ hfindings⟩ ⟨rfl, hdivides⟩
      · intro h
        obtain ⟨findings, hfindings⟩ := hbelow.2 (by
          rintro ⟨hblock, hdivides⟩
          rw [hblock] at hdivides
          exact h ⟨pvd, rfl, hblock, hdivides⟩)
        exact ⟨_, bind_eq_ok.2 ⟨findings, hfindings, rfl⟩⟩

/-- The walks of the validator have the call frames they need, and it does not divide by zero. -/
def StaysWithin (limits : StructuralLimits) (frames : ℕ) (data : Bytes) : Prop :=
  match recognised data with
  | some .adf => data.length ≤ limits.maxBytes → ∀ variant, Adf.variantOf data = some variant →
      AdfShallow limits.maxNodes frames data variant
  | some .fat => data.length ≤ limits.maxBytes →
      BpbValid (Fat.Volume.ofBoot data) data.length →
        FatShallow limits.maxNodes frames data (Fat.Volume.ofBoot data)
  | some .iso9660 => ¬IsoDivides limits data
  | _ => True

lemma map_ok_iff {x : Except Exc StructuralValidation} :
    (∃ v, some <$> x = .ok v) ↔ ∃ v, x = .ok v := by
  cases x with
  | ok v => exact iff_of_true ⟨_, rfl⟩ ⟨_, rfl⟩
  | error e =>
      refine iff_of_false ?_ ?_
      · rintro ⟨v, h⟩
        cases h
      · rintro ⟨v, h⟩
        cases h

/-- `_validate` returns exactly when its walks have the call frames they need and it does not come
to a record of length zero in a volume of block size zero. -/
theorem validate_returns_iff (limits : StructuralLimits) (frames : ℕ) (data : Bytes) :
    (∃ v, validate limits frames data = .ok v) ↔ StaysWithin limits frames data := by
  unfold validate StaysWithin
  cases recognised data with
  | none => exact iff_of_true ⟨_, rfl⟩ trivial
  | some format =>
      cases format with
      | adf =>
          simp only []
          split
          · next hlong => exact iff_of_true ⟨_, rfl⟩ fun h => absurd h (by omega)
          · next hfits =>
              rw [map_ok_iff, adf_ok_iff, forall_prop_of_true (by omega)]
      | fat =>
          simp only []
          split
          · next hlong => exact iff_of_true ⟨_, rfl⟩ fun h => absurd h (by omega)
          · next hfits =>
              rw [map_ok_iff, fat_ok_iff]
              exact ⟨fun h _ => h, fun h => h (by omega)⟩
      | rdb => exact iff_of_true (map_ok_iff.2 (rdb_ok data)) trivial
      | iso9660 => exact map_ok_iff.trans (iso_ok_iff limits)
      | lha =>
          simp only []
          split
          · exact iff_of_true ⟨_, rfl⟩ trivial
          · exact iff_of_true (map_ok_iff.2 (lha_ok limits data)) trivial

end Validator

lemma validate_iso {limits : StructuralLimits} {frames : ℕ} {data : Bytes}
    (h : recognised data = some .iso9660) :
    validate limits frames data = some <$> iso limits data := by
  unfold validate
  rw [h]

/-! ### A volume of block size zero -/

/-- A primary volume descriptor with block size zero, whose root directory is the first byte of the
file. -/
@[irreducible] def zeroBlockPvd : Bytes :=
  [1, 0x43, 0x44, 0x30, 0x30, 0x31, 1] ++ List.replicate 159 0 ++ 1 :: List.replicate 1881 0

/-- An image with this descriptor. -/
@[irreducible] def zeroBlockImage : Bytes := List.replicate 32768 0 ++ zeroBlockPvd

lemma length_zeroBlockPvd : zeroBlockPvd.length = 2048 := by
  rw [zeroBlockPvd]
  simp only [List.length_append, List.length_cons, List.length_replicate, List.length_nil]

lemma length_zeroBlockImage : zeroBlockImage.length = 34816 := by
  rw [zeroBlockImage, List.length_append, List.length_replicate, length_zeroBlockPvd]

/-- The sectors before the volume descriptors are zero. -/
lemma slice_zeros {start stop : ℕ} (h : stop ≤ 32768) (descriptors : Bytes) :
    slice (List.replicate 32768 0 ++ descriptors) start stop = List.replicate (stop - start) 0 := by
  rw [slice_append_left (by rw [List.length_replicate]; exact h), slice_replicate h]

lemma slice_behind_zeros {start stop : ℕ} (h : 32768 ≤ start) (descriptors : Bytes) :
    slice (List.replicate 32768 0 ++ descriptors) start stop =
      slice descriptors (start - 32768) (stop - 32768) := by
  rw [slice_append_right (by rw [List.length_replicate]; exact h), List.length_replicate]

/-- Such a file is taken for an ISO 9660 volume. -/
lemma recognised_zeros {descriptors : Bytes} (hmark : slice descriptors 1 6 = ascii "CD001")
    (hshort : 6 ≤ descriptors.length ∧ descriptors.length ≤ 32768) :
    recognised (List.replicate 32768 0 ++ descriptors) = some .iso9660 := by
  have hlength : (List.replicate 32768 0 ++ descriptors).length = 32768 + descriptors.length := by
    rw [List.length_append, List.length_replicate]
  have hhead : (List.replicate 32768 0 ++ descriptors).take 65536 =
      List.replicate 32768 0 ++ descriptors := List.take_of_length_le (by omega)
  have hdos : (List.replicate 32768 0 ++ descriptors).take 3 = List.replicate 3 0 :=
    @slice_zeros 0 3 (by decide) descriptors
  have hboot : slice (List.replicate 32768 0 ++ descriptors) 510 512 = List.replicate 2 0 :=
    slice_zeros (by decide) descriptors
  have hrdb : ∀ i ∈ List.range (min 16 ((32768 + descriptors.length) / 512)),
      ¬decide (slice (List.replicate 32768 0 ++ descriptors) (i * 512) (i * 512 + 4) =
        ascii "RDSK") = true := by
    intro i hi
    rw [List.mem_range] at hi
    rw [slice_zeros (by omega), Nat.add_sub_cancel_left]
    decide
  have hiso : slice (List.replicate 32768 0 ++ descriptors) 0x8001 0x8006 = ascii "CD001" := by
    rw [slice_behind_zeros (by decide), ← hmark]
  unfold recognised
  simp only [hhead, hdos, hboot, hiso, hlength]
  rw [if_neg (by decide), if_neg, if_neg (by rw [List.any_eq_true]; push Not; exact hrdb), if_pos]
  · exact ⟨by omega, trivial⟩
  · rintro ⟨-, hzero, -⟩
    exact absurd hzero (by decide)

lemma recognised_zeroBlockImage : recognised zeroBlockImage = some .iso9660 := by
  rw [zeroBlockImage]
  exact recognised_zeros (by decide +kernel) (by rw [length_zeroBlockPvd]; decide)

/-- A volume descriptor is counted, and a terminator is the last one. -/
lemma readDescriptors_cons {block : Bytes} (hlength : block.length = 2048)
    (hmark : slice block 1 6 = ascii "CD001" ∧ u8 block 6 = 1) (rest : List Bytes)
    (read : Descriptors) :
    readDescriptors (block :: rest) read =
      let read := { read with
        count := read.count + 1
        pvd := if u8 block 0 = 1 then some block else read.pvd }
      if u8 block 0 = 255 then { read with terminator := true } else readDescriptors rest read := by
  rw [readDescriptors, if_neg (not_not.2 hlength),
    if_neg (not_or.2 ⟨not_not.2 hmark.1, not_not.2 hmark.2⟩)]

lemma pvd_zeroBlockImage : (volumeDescriptors zeroBlockImage).pvd = some zeroBlockPvd := by
  have hsectors : descriptorSectors zeroBlockImage = [zeroBlockPvd] := by
    rw [descriptorSectors, length_zeroBlockImage]
    show [slice zeroBlockImage 32768 34816] = _
    rw [zeroBlockImage, slice_behind_zeros (Nat.le_refl _), slice, List.take_of_length_le]
    · rfl
    · rw [List.length_drop, length_zeroBlockPvd]
  have hfirst : u8 zeroBlockPvd 0 = 1 := by decide +kernel
  rw [volumeDescriptors, hsectors, readDescriptors_cons length_zeroBlockPvd (by decide +kernel)]
  simp only [hfirst]
  rfl

/-- `_iso_directories` divides by zero. -/
theorem zero_block_size_raises : ¬∃ v, validate .default 1000 zeroBlockImage = .ok v := by
  have hcontent : isoContent zeroBlockImage 0 (0, 1) = [0] := by
    rw [isoContent, zeroBlockImage, slice_zeros (by decide)]
    rfl
  have hroot : isoKey (slice zeroBlockPvd 156 190) = (0, 1) := by decide +kernel
  have hnext : isoNext zeroBlockImage 0 ⟨[slice zeroBlockPvd 156 190], [], 0, []⟩ =
      some (0, 1) := by
    unfold isoNext
    simp only [hroot]
    rw [if_neg]
    simp only [OutOfFile, length_zeroBlockImage]
    decide
  have hdivides : IsoDivides .default zeroBlockImage := by
    refine ⟨zeroBlockPvd, pvd_zeroBlockImage, by decide +kernel, (0, 1),
      ⟨_, .refl, rfl, hnext⟩, ?_⟩
    rw [hcontent]
    exact ⟨0, by decide, .first, by decide⟩
  rw [validate_iso recognised_zeroBlockImage, map_ok_iff, iso_ok_iff]
  exact not_not.2 hdivides

end StructuralValidator

end AVBox
