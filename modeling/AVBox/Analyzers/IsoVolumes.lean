import AVBox.Analyzers.StructuralAgreement
import AVBox.Analyzers.StructuralTotal
import AVBox.Lib.Layout

/-!
# ISO 9660 volumes

The directory records of a volume, as a reader of the format comes to them: one behind the other in
the extent of a directory, with zero bytes up to the end of a sector where no record is left in it,
and from the record of a subdirectory on to its extent.  `valid_iso_in_file` says that in a valid
volume the validator has seen all of them, and that their extents lie within the file.
-/

namespace AVBox

namespace StructuralValidator

open Binary Fallible

/-! ## Records -/

section Records

/-- From one place in a directory to the next, over a record or over the rest of a sector. -/
def NextPlace (blockSize : ℕ) (directory : Bytes) (pos pos' : ℕ) : Prop :=
  pos < directory.length ∧
    pos' = if u8 directory pos = 0 then (pos / blockSize + 1) * blockSize
      else pos + u8 directory pos

/-- The places that a reader of the directory comes to. -/
def Place (blockSize : ℕ) (directory : Bytes) (pos : ℕ) : Prop :=
  Relation.ReflTransGen (NextPlace blockSize directory) 0 pos

/-- A record starts at the place. -/
structure RecordStarts (blockSize : ℕ) (directory : Bytes) (pos : ℕ) : Prop where
  place : Place blockSize directory pos
  inside : pos < directory.length
  nonempty : u8 directory pos ≠ 0

/-- The record that starts at a place. -/
def recordAt (directory : Bytes) (pos : ℕ) : Bytes := slice directory pos (pos + u8 directory pos)

/-- The record at the place has room for its fields and its name, and lies in the directory. -/
structure WellFormedRecord (directory : Bytes) (pos : ℕ) : Prop where
  fields : 34 ≤ u8 directory pos
  name : 33 + u8 (recordAt directory pos) 32 ≤ u8 directory pos
  inside : pos + u8 directory pos ≤ directory.length

/-- The extent of a record lies within the file. -/
def InFile (data : Bytes) (blockSize : ℕ) (record : Bytes) : Prop :=
  (isoKey record).1 * blockSize + (isoKey record).2 ≤ data.length

/-- The records of directories that are reachable from the root record. -/
inductive ReachableDirectory (data : Bytes) (blockSize : ℕ) (root : Bytes) : Bytes → Prop
  | root : ReachableDirectory data blockSize root root
  | child {record : Bytes} {pos : ℕ} : ReachableDirectory data blockSize root record →
      RecordStarts blockSize (isoContent data blockSize (isoKey record)) pos →
      isoSubdirectory (recordAt (isoContent data blockSize (isoKey record)) pos) = true →
      ReachableDirectory data blockSize root
        (recordAt (isoContent data blockSize (isoKey record)) pos)

/-- The extents of the reachable directories lie within the file, their records are well formed, and
the extents of these lie within the file too. -/
structure ExtentsInFile (data : Bytes) (blockSize : ℕ) (root : Bytes) : Prop where
  directory : ∀ {record}, ReachableDirectory data blockSize root record →
    InFile data blockSize record
  record : ∀ {record pos}, ReachableDirectory data blockSize root record →
    RecordStarts blockSize (isoContent data blockSize (isoKey record)) pos →
    WellFormedRecord (isoContent data blockSize (isoKey record)) pos ∧
      InFile data blockSize (recordAt (isoContent data blockSize (isoKey record)) pos)

end Records

/-! ## The loop over the records of a directory -/

section Scan

variable {data directory : Bytes} {blockSize : ℕ}

lemma inFile_iff {record : Bytes} :
    InFile data blockSize record ↔ ¬OutOfFile data blockSize (isoKey record) := by
  rw [InFile, OutOfFile]
  omega

/-- Nothing is found at a place, and the record of a subdirectory there is pending. -/
structure Checked (data : Bytes) (blockSize : ℕ) (directory : Bytes) (Pending : Bytes → Prop)
    (pos : ℕ) : Prop where
  wellFormed : WellFormedRecord directory pos
  inFile : InFile data blockSize (recordAt directory pos)
  pending : isoSubdirectory (recordAt directory pos) = true → Pending (recordAt directory pos)

/-- A pass without a finding. -/
structure CleanPass (data : Bytes) (blockSize : ℕ) (directory : Bytes) (scan scan' : IsoScan) :
    Prop where
  clean : scan.state.findings = []
  goesOn : scan'.stopped = false
  seen : scan'.state.seen = scan.state.seen
  pending : scan.state.pending ⊆ scan'.state.pending
  next : scan.pos < directory.length → NextPlace blockSize directory scan.pos scan'.pos
  checked : u8 directory scan.pos ≠ 0 →
    Checked data blockSize directory (· ∈ scan'.state.pending) scan.pos

lemma report_findings_ne_nil {state : IsoState} {finding : String} :
    (state.report finding).findings ≠ [] := by
  rw [IsoState.report]
  simp

lemma isoRecord_clean {scan scan' : IsoScan}
    (h : isoRecord data blockSize directory scan = .ok scan') (hclean : scan'.state.findings = []) :
    CleanPass data blockSize directory scan scan' := by
  unfold isoRecord at h
  simp only [] at h
  split at h
  · next hzero =>
      split at h
      · cases h
      · obtain rfl := Except.ok.inj h
        exact ⟨hclean, rfl, rfl, List.Subset.refl _, fun hlt => ⟨hlt, (if_pos hzero).symm⟩,
          fun hne => absurd hzero hne⟩
  split at h
  · obtain rfl := Except.ok.inj h
    exact absurd hclean report_findings_ne_nil
  split at h
  · obtain rfl := Except.ok.inj h
    exact absurd hclean report_findings_ne_nil
  next hzero hbounds hname =>
  obtain rfl := Except.ok.inj h
  by_cases hout : OutOfFile data blockSize (isoKey (recordAt directory scan.pos))
  · simp only [recordAt] at hout
    simp only [if_pos hout] at hclean
    split at hclean
    · exact absurd hclean report_findings_ne_nil
    · exact absurd hclean report_findings_ne_nil
  simp only [recordAt] at hout
  simp only [if_neg hout] at hclean ⊢
  have hwell : WellFormedRecord directory scan.pos := by
    refine ⟨by omega, ?_, by omega⟩
    rw [recordAt]
    omega
  by_cases hsub : isoSubdirectory (recordAt directory scan.pos) = true
  · simp only [recordAt] at hsub
    simp only [if_pos hsub] at hclean ⊢
    exact ⟨hclean, rfl, rfl, List.subset_cons_self _ _, fun hlt => ⟨hlt, (if_neg hzero).symm⟩,
      fun _ => ⟨hwell, inFile_iff.2 hout, fun _ => List.mem_cons_self⟩⟩
  · simp only [recordAt] at hsub
    simp only [if_neg hsub] at hclean ⊢
    exact ⟨hclean, rfl, rfl, List.Subset.refl _, fun hlt => ⟨hlt, (if_neg hzero).symm⟩,
      fun _ => ⟨hwell, inFile_iff.2 hout, fun h => absurd h hsub⟩⟩

lemma Checked.mono {Pending Pending' : Bytes → Prop} {pos : ℕ}
    (h : Checked data blockSize directory Pending pos) (hmono : ∀ row, Pending row → Pending' row) :
    Checked data blockSize directory Pending' pos :=
  ⟨h.wellFormed, h.inFile, fun hsub => hmono _ (h.pending hsub)⟩

lemma NextPlace.lt (hblock : 0 < blockSize) {pos pos' : ℕ}
    (h : NextPlace blockSize directory pos pos') : pos < pos' := by
  obtain ⟨-, rfl⟩ := h
  split
  · have hlt := Nat.lt_div_mul_add hblock (a := pos)
    rw [Nat.succ_mul]
    exact hlt
  · omega

lemma Place.le (hblock : 0 < blockSize) {pos pos' : ℕ}
    (h : Relation.ReflTransGen (NextPlace blockSize directory) pos pos') : pos ≤ pos' := by
  induction h with
  | refl => exact Nat.le_refl _
  | tail _ hnext ih => exact Nat.le_trans ih (Nat.le_of_lt (hnext.lt hblock))

/-- There is no place between one and the next. -/
lemma Place.lt_next (hblock : 0 < blockSize) {pos pos' other : ℕ}
    (hpos : Place blockSize directory pos) (hnext : NextPlace blockSize directory pos pos')
    (hother : Place blockSize directory other) (hlt : other < pos') :
    other < pos ∨ other = pos := by
  have hunique : Relator.RightUnique (NextPlace blockSize directory) := by
    rintro first second third ⟨-, rfl⟩ ⟨-, rfl⟩
    rfl
  rcases Relation.ReflTransGen.total_of_right_unique hunique hpos hother with hbehind | hbefore
  · rcases Relation.ReflTransGen.cases_head hbehind with rfl | ⟨next, hnext', hrest⟩
    · exact .inr rfl
    · obtain rfl := hunique hnext hnext'
      exact absurd (Place.le hblock hrest) (Nat.not_le.2 hlt)
  · exact Nat.lt_or_eq_of_le (Place.le hblock hbefore)

/-- What holds of the loop as long as it has no findings: the records before its place are
checked. -/
structure ScanSound (data : Bytes) (blockSize : ℕ) (directory : Bytes) (state : IsoState)
    (scan : IsoScan) : Prop where
  clean : state.findings = []
  place : Place blockSize directory scan.pos
  goesOn : scan.stopped = false
  seen : scan.state.seen = state.seen
  pending : state.pending ⊆ scan.state.pending
  checked : ∀ pos, RecordStarts blockSize directory pos → pos < scan.pos →
    Checked data blockSize directory (· ∈ scan.state.pending) pos

lemma ScanSound.next (hblock : 0 < blockSize) {state : IsoState} {scan scan' : IsoScan}
    (h : ScanSound data blockSize directory state scan)
    (hpass : CleanPass data blockSize directory scan scan') (hlt : scan.pos < directory.length) :
    ScanSound data blockSize directory state scan' where
  clean := h.clean
  place := h.place.tail (hpass.next hlt)
  goesOn := hpass.goesOn
  seen := hpass.seen.trans h.seen
  pending := List.Subset.trans h.pending hpass.pending
  checked := by
    intro pos hstarts hbefore
    rcases h.place.lt_next hblock (hpass.next hlt) hstarts.place hbefore with hold | rfl
    · exact (h.checked pos hstarts hold).mono fun _ hrow => hpass.pending hrow
    · exact hpass.checked hstarts.nonempty

/-- The loop over the records of a directory has checked them all if it has no findings. -/
lemma isoRecords_clean (hblock : 0 < blockSize) {state state' : IsoState}
    (h : isoRecords data blockSize directory state = .ok state') (hclean : state'.findings = []) :
    state.findings = [] ∧ state'.seen = state.seen ∧ state.pending ⊆ state'.pending ∧
      ∀ pos, RecordStarts blockSize directory pos →
        Checked data blockSize directory (· ∈ state'.pending) pos := by
  obtain ⟨final, hrun, hfinal⟩ := bind_eq_ok.1 h
  obtain rfl := Except.ok.inj hfinal
  obtain ⟨hreach, hstop⟩ := Loop.reaches_of_run hrun
  have hsound := hreach.invariant (I := fun scan => scan.state.findings = [] →
    ScanSound data blockSize directory state scan) ?_ ?_ hclean
  · refine ⟨hsound.clean, hsound.seen, hsound.pending, fun pos hstarts => ?_⟩
    refine hsound.checked pos hstarts ?_
    by_contra hge
    have hinside := hstarts.inside
    rw [isoScanGoesOn, decide_eq_false_iff_not] at hstop
    exact hstop ⟨hsound.goesOn, by omega⟩
  · rintro scan scan' hscan ⟨hgoes, hbody⟩ hclean'
    rw [isoScanGoesOn, decide_eq_true_eq] at hgoes
    have hpass := isoRecord_clean hbody hclean'
    exact (hscan hpass.clean).next hblock hpass hgoes.2
  · exact fun hnone => ⟨hnone, .refl, rfl, rfl, List.Subset.refl _,
      fun pos _ hlt => absurd hlt (Nat.not_lt_zero _)⟩

end Scan

/-! ## The loop over the pending directories -/

section Work

variable {data : Bytes} {blockSize maxNodes : ℕ} {root : Bytes}

/-- The record is pending, or its extent has been read. -/
def IsoState.Knows (state : IsoState) (record : Bytes) : Prop :=
  record ∈ state.pending ∨ isoKey record ∈ state.seen

/-- What holds of the loop as long as it has no findings. -/
structure WorkSound (data : Bytes) (blockSize : ℕ) (root : Bytes) (state : IsoState) : Prop where
  root : state.Knows root
  inFile : ∀ key ∈ state.seen, ¬OutOfFile data blockSize key
  checked : ∀ key ∈ state.seen, ∀ pos,
    RecordStarts blockSize (isoContent data blockSize key) pos →
      Checked data blockSize (isoContent data blockSize key) state.Knows pos

/-- A pass may forget no record. -/
lemma WorkSound.of_knows {state state' : IsoState} (h : WorkSound data blockSize root state)
    (hknows : ∀ record, state.Knows record → state'.Knows record)
    (hseen : ∀ key ∈ state'.seen, key ∈ state.seen ∨ ¬OutOfFile data blockSize key ∧ ∀ pos,
      RecordStarts blockSize (isoContent data blockSize key) pos →
        Checked data blockSize (isoContent data blockSize key) state'.Knows pos) :
    WorkSound data blockSize root state' where
  root := hknows _ h.root
  inFile := by
    intro key hkey
    rcases hseen key hkey with hold | ⟨hnew, -⟩
    · exact h.inFile key hold
    · exact hnew
  checked := by
    intro key hkey pos hstarts
    rcases hseen key hkey with hold | ⟨-, hnew⟩
    · exact (h.checked key hold pos hstarts).mono hknows
    · exact hnew pos hstarts

lemma isoStep_clean (hblock : 0 < blockSize) {state state' : IsoState}
    (hpending : state.pending ≠ []) (h : isoStep data blockSize state = .ok state')
    (hclean : state'.findings = []) : state.findings = [] ∧
      (WorkSound data blockSize root state → WorkSound data blockSize root state') := by
  unfold isoStep at h
  cases hp : state.pending with
  | nil => exact absurd hp hpending
  | cons record pending =>
      rw [hp] at h
      simp only [] at h
      split at h
      · next hseen =>
          obtain rfl := Except.ok.inj h
          refine ⟨hclean, fun hsound => hsound.of_knows ?_ fun key hkey => .inl hkey⟩
          rintro row (hrow | hrow)
          · rw [hp] at hrow
            rcases List.mem_cons.1 hrow with rfl | hrow
            · exact .inr hseen
            · exact .inl hrow
          · exact .inr hrow
      split at h
      · obtain rfl := Except.ok.inj h
        exact absurd hclean report_findings_ne_nil
      next hout =>
      obtain ⟨hclean', hseen, hsub, hchecked⟩ := isoRecords_clean hblock h hclean
      refine ⟨hclean', fun hsound => hsound.of_knows ?_ fun key hkey => ?_⟩
      · rintro row (hrow | hrow)
        · rw [hp] at hrow
          rcases List.mem_cons.1 hrow with rfl | hrow
          · exact .inr (hseen ▸ List.mem_cons_self)
          · exact .inl (hsub hrow)
        · exact .inr (hseen ▸ List.mem_cons_of_mem _ hrow)
      · rw [hseen] at hkey
        rcases List.mem_cons.1 hkey with rfl | hkey
        · exact .inr ⟨hout, fun pos hstarts => (hchecked pos hstarts).mono fun _ hrow => .inl hrow⟩
        · exact .inl hkey

/-- Without findings, all that is reachable has been checked. -/
lemma extentsInFile_of_clean (hblock : 0 < blockSize)
    (h : isoDirectories data blockSize maxNodes root = .ok []) :
    ExtentsInFile data blockSize root := by
  obtain ⟨final, hrun, h⟩ := bind_eq_ok.1 h
  split at h
  · have hnone := Except.ok.inj h
    simp at hnone
  next hstopped =>
  have hclean : final.findings = [] := Except.ok.inj h
  have hdone : final.pending = [] := not_not.1 (not_or.1 hstopped).1
  obtain ⟨hreach, -⟩ := Loop.reaches_of_run hrun
  have hsound := hreach.invariant (I := fun state => state.findings = [] →
    WorkSound data blockSize root state) ?_ ?_ hclean
  · have hknows : ∀ record, final.Knows record → isoKey record ∈ final.seen := by
      rintro record (hpending | hseen)
      · rw [hdone] at hpending
        cases hpending
      · exact hseen
    have hseen : ∀ {record}, ReachableDirectory data blockSize root record →
        isoKey record ∈ final.seen := by
      intro record hrecord
      induction hrecord with
      | root => exact hknows _ hsound.root
      | child _ hstarts hsub ih => exact hknows _ ((hsound.checked _ ih _ hstarts).pending hsub)
    constructor
    · exact fun hrecord => inFile_iff.2 (hsound.inFile _ (hseen hrecord))
    · intro record pos hrecord hstarts
      have hchecked := hsound.checked _ (hseen hrecord) pos hstarts
      exact ⟨hchecked.wellFormed, hchecked.inFile⟩
  · rintro state state' hstate ⟨hgoes, hbody⟩ hclean'
    rw [isoGoesOn, decide_eq_true_eq] at hgoes
    obtain ⟨hclean, hkeeps⟩ := isoStep_clean hblock hgoes.1 hbody hclean'
    exact hkeeps (hstate hclean)
  · exact fun _ => ⟨.inl List.mem_cons_self, fun _ hkey => absurd hkey List.not_mem_nil,
      fun _ hkey => absurd hkey List.not_mem_nil⟩

/-- In a volume that the validator reports as valid, the extents of everything that is reachable
from the root record lie within the file. -/
theorem valid_iso_in_file {limits : StructuralLimits} {frames : ℕ} {v : StructuralValidation}
    (h : validate limits frames data = .ok (some v)) (hformat : v.format = .iso9660)
    (hstate : v.state = .valid) : ∃ pvd, (volumeDescriptors data).pvd = some pvd ∧
      ExtentsInFile data 2048 (slice pvd 156 190) := by
  obtain ⟨-, hv⟩ := validated_as h hstate
  rw [hformat] at hv
  replace hv : iso limits data = .ok v := hv
  unfold iso at hv
  simp only [] at hv
  cases hpvd : (volumeDescriptors data).pvd with
  | none =>
      rw [hpvd] at hv
      obtain rfl := Except.ok.inj hv
      simp only [result] at hstate
      have hnone := findings_of_valid hstate
      simp at hnone
  | some pvd =>
      rw [hpvd] at hv
      obtain ⟨below, hbelow, hv⟩ := bind_eq_ok.1 hv
      obtain rfl := Except.ok.inj hv
      simp only [result] at hstate
      obtain ⟨habove, hbelow'⟩ := List.append_eq_nil_iff.1 (findings_of_valid hstate)
      rw [hbelow'] at hbelow
      have hblock : le16 pvd 128 = 2048 := by
        by_contra hne
        rw [if_pos hne] at habove
        simp at habove
      rw [hblock] at hbelow
      exact ⟨pvd, rfl, extentsInFile_of_clean (by decide) hbelow⟩

end Work

/-! ### A volume with two directories -/

section Directories

variable {data : Bytes}

/-- A record that the validator has nothing to say about. -/
structure LaidOutRecord (data row : Bytes) : Prop where
  length : u8 row 0 = row.length
  fields : 34 ≤ row.length
  name : 33 + u8 row 32 ≤ row.length
  inFile : ¬OutOfFile data 2048 (isoKey row)

instance (row : Bytes) : Decidable (LaidOutRecord data row) :=
  decidable_of_iff (u8 row 0 = row.length ∧ 34 ≤ row.length ∧ 33 + u8 row 32 ≤ row.length ∧
      ¬OutOfFile data 2048 (isoKey row))
    ⟨fun ⟨hlength, hfields, hname, hfile⟩ => ⟨hlength, hfields, hname, hfile⟩,
      fun h => ⟨h.length, h.fields, h.name, h.inFile⟩⟩

/-- The records of one sector, and zero bytes up to its end. -/
def directorySector (rows : List Bytes) : Bytes :=
  rows.flatten ++ List.replicate (2048 - rows.flatten.length) 0

lemma length_directorySector {rows : List Bytes} (h : rows.flatten.length < 2048) :
    (directorySector rows).length = 2048 := by
  rw [directorySector, List.length_append, List.length_replicate]
  omega

lemma u8_append_right {first rest : Bytes} : u8 (first ++ rest) first.length = u8 rest 0 := by
  rw [u8, u8, List.getD_eq_getElem?_getD, List.getD_eq_getElem?_getD,
    List.getElem?_append_right (Nat.le_refl _), Nat.sub_self]

/-- A pass over a record. -/
lemma isoRecord_laidOut {before row rest : Bytes} (hrow : LaidOutRecord data row)
    (state : IsoState) :
    isoRecord data 2048 (before ++ (row ++ rest)) ⟨before.length, false, state⟩ =
      .ok ⟨(before ++ row).length, false, { state with
        nodes := state.nodes + 1
        pending := if isoSubdirectory row then row :: state.pending else state.pending }⟩ := by
  have hlength : u8 (before ++ (row ++ rest)) before.length = row.length := by
    have hfields := hrow.fields
    rw [u8_append_right, ← hrow.length, u8, u8, List.getD_eq_getElem?_getD,
      List.getD_eq_getElem?_getD, List.getElem?_append_left (by omega)]
  have hslice : slice (before ++ (row ++ rest)) before.length (before.length + row.length) =
      row := by
    rw [slice, List.drop_left, Nat.add_sub_cancel_left, List.take_left]
  have hfields := hrow.fields
  have hname := hrow.name
  unfold isoRecord
  simp only [hlength, hslice]
  rw [if_neg (by omega), if_neg (by simp only [List.length_append]; omega), if_neg (by omega),
    if_neg hrow.inFile, List.length_append]
  split <;> rfl

/-- What the loop makes of the records that are still to be read. -/
lemma run_laidOut {rows : List Bytes} {tail : ℕ} (hrows : ∀ row ∈ rows, LaidOutRecord data row)
    (htail : 0 < tail) (before : Bytes) (fuel : ℕ)
    (hsector : (before ++ rows.flatten).length + tail = 2048) (state : IsoState) :
    ∃ pos, Loop.run Exc.unending
        (isoScanGoesOn (before ++ (rows.flatten ++ List.replicate tail 0)))
        (isoRecord data 2048 (before ++ (rows.flatten ++ List.replicate tail 0)))
        (fuel + rows.length + 1) ⟨before.length, false, state⟩ =
      .ok ⟨pos, false, { state with
        nodes := state.nodes + rows.length + 1
        pending := (rows.filter isoSubdirectory).reverse ++ state.pending }⟩ := by
  induction rows generalizing before state with
  | nil =>
      rw [List.flatten_nil, List.append_nil] at hsector
      have hlength : (before ++ List.replicate tail (0 : UInt8)).length = 2048 := by
        rw [List.length_append, List.length_replicate, hsector]
      have hzero : u8 (before ++ List.replicate tail 0) before.length = 0 := by
        obtain ⟨tail, rfl⟩ := Nat.exists_eq_succ_of_ne_zero htail.ne'
        rw [u8_append_right, List.replicate_succ]
        rfl
      have hpass : isoRecord data 2048 (before ++ List.replicate tail 0)
          ⟨before.length, false, state⟩ =
            .ok ⟨(before.length / 2048 + 1) * 2048, false, { state with
              nodes := state.nodes + 1 }⟩ := by
        unfold isoRecord
        simp only [hzero]
        rfl
      have hgoes : isoScanGoesOn (before ++ List.replicate tail 0)
          ⟨before.length, false, state⟩ = true :=
        decide_eq_true ⟨rfl, by rw [hlength]; show before.length < 2048; omega⟩
      refine ⟨(before.length / 2048 + 1) * 2048, ?_⟩
      rw [List.flatten_nil, List.nil_append, List.length_nil, Loop.run_of_pass hgoes hpass]
      refine Loop.run_of_stopped ?_ _
      rw [isoScanGoesOn, decide_eq_false_iff_not, hlength]
      simp only [not_and, Nat.not_lt]
      omega
  | cons row rows ih =>
      have hrow := hrows row List.mem_cons_self
      have hfields := hrow.fields
      have hgoes : isoScanGoesOn (before ++ (row ++ (rows.flatten ++ List.replicate tail 0)))
          ⟨before.length, false, state⟩ = true := by
        refine decide_eq_true ⟨rfl, ?_⟩
        simp only [List.length_append]
        omega
      rw [List.flatten_cons, ← List.append_assoc] at hsector
      obtain ⟨pos, hrun⟩ := ih (fun other hother => hrows other (List.mem_cons_of_mem _ hother))
        (before ++ row) hsector { state with
          nodes := state.nodes + 1
          pending := if isoSubdirectory row then row :: state.pending else state.pending }
      refine ⟨pos, ?_⟩
      rw [List.flatten_cons, List.append_assoc, List.length_cons, ← Nat.add_assoc,
        Loop.run_of_pass hgoes (isoRecord_laidOut hrow state), ← List.append_assoc before row, hrun,
        List.filter_cons]
      congr 2
      simp only [IsoState.mk.injEq, and_true, true_and]
      constructor
      · split <;> simp
      · omega

/-- The loop over the records of a directory that is laid out in one sector. -/
lemma isoRecords_laidOut {rows : List Bytes} (hrows : ∀ row ∈ rows, LaidOutRecord data row)
    (hsector : rows.flatten.length < 2048) (state : IsoState) :
    isoRecords data 2048 (directorySector rows) state = .ok { state with
      nodes := state.nodes + rows.length + 1
      pending := (rows.filter isoSubdirectory).reverse ++ state.pending } := by
  have hcount : rows.length ≤ rows.flatten.length := by
    clear hsector
    induction rows with
    | nil => exact Nat.le_refl _
    | cons row rows ih =>
        have hfields := (hrows row List.mem_cons_self).fields
        have hrest := ih fun other hother => hrows other (List.mem_cons_of_mem _ hother)
        rw [List.flatten_cons, List.length_append, List.length_cons]
        omega
  obtain ⟨pos, hrun⟩ := run_laidOut hrows (Nat.sub_pos_of_lt hsector) [] (2047 - rows.length)
    (by rw [List.nil_append]; omega) state
  rw [List.nil_append, Nat.sub_add_cancel (by omega)] at hrun
  rw [isoRecords, length_directorySector hsector]
  exact bind_eq_ok.2 ⟨_, hrun, rfl⟩

end Directories
/-! ### An empty volume -/

/-- A volume is valid if its descriptors and its directories are. -/
lemma valid_of_directories (limits : StructuralLimits) (frames : ℕ) {data pvd : Bytes} {count : ℕ}
    (hformat : recognised data = some .iso9660)
    (hread : volumeDescriptors data = ⟨count, some pvd, true, []⟩) (hblock : le16 pvd 128 = 2048)
    (hblocks : le32 pvd 80 * max 2048 1 ≤ data.length)
    (hdirectories : isoDirectories data 2048 limits.maxNodes (slice pvd 156 190) = .ok []) :
    ∃ v, validate limits frames data = .ok (some v) ∧ v.format = .iso9660 ∧ v.state = .valid := by
  obtain ⟨v, hv, hstate⟩ : ∃ v, iso limits data = .ok v ∧ v.state = .valid := by
    unfold iso
    simp only [hread, hblock]
    refine ⟨_, bind_eq_ok.2 ⟨[], hdirectories, rfl⟩, ?_⟩
    rw [if_neg (Nat.not_lt.2 hblocks)]
    simp [result]
  exact ⟨v, (validate_iso hformat).trans (map_some_eq_ok.2 hv), iso_format hv, hstate⟩

/-- A directory record. -/
def directoryRecord (extent size : ℕ) (flags : UInt8) (name : Bytes) : Bytes :=
  let padding := List.replicate ((name.length + 1) % 2) 0
  [UInt8.ofNat (33 + name.length + padding.length), 0] ++ leBytes 4 extent ++ beBytes extent ++
    leBytes 4 size ++ beBytes size ++ List.replicate 7 0 ++ [flags, 0, 0, 1, 0, 0, 1] ++
    UInt8.ofNat name.length :: (name ++ padding)

/-- The records of the root directory: itself, its parent, a file and a subdirectory. -/
def rootRows : List Bytes :=
  [directoryRecord 18 2048 2 [0], directoryRecord 18 2048 2 [1],
    directoryRecord 20 5 0 (ascii "README.;1"), directoryRecord 19 2048 2 (ascii "DISK")]

/-- The records of the subdirectory: itself, its parent and a file. -/
def diskRows : List Bytes :=
  [directoryRecord 19 2048 2 [0], directoryRecord 18 2048 2 [1],
    directoryRecord 21 2048 0 (ascii "DATA.;1")]

/-- The primary descriptor of a volume of 22 sectors, with its root directory in sector 18. -/
@[irreducible] def diskPvd : Bytes :=
  [1, 0x43, 0x44, 0x30, 0x30, 0x31, 1] ++ List.replicate 73 0 ++ leBytes 4 22 ++ beBytes 22 ++
    List.replicate 40 0 ++ [0, 8, 8, 0] ++ List.replicate 24 0 ++ directoryRecord 18 2048 2 [0] ++
    List.replicate 1858 0

/-- The terminator behind it. -/
@[irreducible] def terminator : Bytes :=
  [255, 0x43, 0x44, 0x30, 0x30, 0x31, 1] ++ List.replicate 2041 0

/-- The two files. -/
@[irreducible] def fileSectors : Bytes := ascii "hello" ++ List.replicate 2043 0 ++
  List.replicate 2048 0x41

/-- The volume. -/
def diskVolume : Bytes :=
  List.replicate 32768 0 ++ (diskPvd ++ (terminator ++ (directorySector rootRows ++
    (directorySector diskRows ++ fileSectors))))

lemma length_diskPvd : diskPvd.length = 2048 := by
  rw [diskPvd]
  simp only [List.length_append, List.length_replicate]
  rfl

lemma length_terminator : terminator.length = 2048 := by
  rw [terminator]
  simp only [List.length_append, List.length_cons, List.length_replicate, List.length_nil]

lemma length_fileSectors : fileSectors.length = 4096 := by
  rw [fileSectors]
  simp only [List.length_append, List.length_replicate]
  rfl

lemma length_rootSector : (directorySector rootRows).length = 2048 :=
  length_directorySector (by decide +kernel)

lemma length_diskSector : (directorySector diskRows).length = 2048 :=
  length_directorySector (by decide +kernel)

lemma length_diskVolume : diskVolume.length = 45056 := by
  simp only [diskVolume, List.length_append, List.length_replicate, length_diskPvd,
    length_terminator, length_rootSector, length_diskSector, length_fileSectors]

/-- Where the sectors of the volume stand in it. -/
lemma diskVolume_sectors : At diskVolume 32768 diskPvd ∧ At diskVolume 34816 terminator ∧
    At diskVolume 36864 (directorySector rootRows) ∧
      At diskVolume 38912 (directorySector diskRows) := by
  have hpvd := (At.self diskVolume).right
  have hterminator := hpvd.right
  have hroot := hterminator.right
  have hdisk := hroot.right
  rw [List.length_replicate] at hpvd hterminator hroot hdisk
  rw [length_diskPvd] at hterminator hroot hdisk
  rw [length_terminator] at hroot hdisk
  rw [length_rootSector] at hdisk
  exact ⟨hpvd.left, hterminator.left, hroot.left, hdisk.left⟩

lemma volumeDescriptors_diskVolume :
    volumeDescriptors diskVolume = ⟨2, some diskPvd, true, []⟩ := by
  obtain ⟨hpvd, hterminator, -, -⟩ := diskVolume_sectors
  have hfirst : slice diskVolume 32768 34816 = diskPvd := by
    rw [← hpvd.slice_eq, length_diskPvd]
  have hsecond : slice diskVolume 34816 36864 = terminator := by
    rw [← hterminator.slice_eq, length_terminator]
  obtain ⟨rest, hsectors⟩ : ∃ rest, descriptorSectors diskVolume =
      slice diskVolume 32768 34816 :: slice diskVolume 34816 36864 :: rest := by
    rw [descriptorSectors, length_diskVolume]
    exact ⟨_, rfl⟩
  have hone : u8 diskPvd 0 = 1 := by decide +kernel
  have hlast : u8 terminator 0 = 255 := by decide +kernel
  rw [volumeDescriptors, hsectors, hfirst, hsecond,
    readDescriptors_cons length_diskPvd (by decide +kernel)]
  simp only [hone]
  rw [if_neg (by decide), readDescriptors_cons length_terminator (by decide +kernel)]
  simp only [hlast]
  rfl

/-- The records of the two directories are well formed, and their extents lie in the volume. -/
lemma rows_laidOut : ∀ row ∈ rootRows ++ diskRows, LaidOutRecord diskVolume row := by
  intro row hrow
  have hfields : ∀ row ∈ rootRows ++ diskRows, u8 row 0 = row.length ∧ 34 ≤ row.length ∧
      33 + u8 row 32 ≤ row.length ∧ (isoKey row).1 * 2048 ≤ 45056 ∧
        (isoKey row).2 ≤ 45056 - (isoKey row).1 * 2048 := by decide +kernel
  obtain ⟨hlength, hfields, hname, hstart, hstop⟩ := hfields row hrow
  refine ⟨hlength, hfields, hname, ?_⟩
  rw [OutOfFile, length_diskVolume]
  omega

/-- The loop reads the root directory and the subdirectory, and is done. -/
lemma isoDirectories_diskVolume {maxNodes : ℕ} (hnodes : 9 < maxNodes) :
    isoDirectories diskVolume 2048 maxNodes (slice diskPvd 156 190) = .ok [] := by
  obtain ⟨-, -, hroot, hdisk⟩ := diskVolume_sectors
  have hrootKey : isoKey (slice diskPvd 156 190) = (18, 2048) := by decide +kernel
  have hdiskKey : isoKey (directoryRecord 19 2048 2 (ascii "DISK")) = (19, 2048) := by
    decide +kernel
  have hrootContent : isoContent diskVolume 2048 (18, 2048) = directorySector rootRows := by
    rw [isoContent, show (18 * 2048 : ℕ) = 36864 from rfl, ← length_rootSector, hroot.slice_eq]
  have hdiskContent : isoContent diskVolume 2048 (19, 2048) = directorySector diskRows := by
    rw [isoContent, show (19 * 2048 : ℕ) = 38912 from rfl, ← length_diskSector, hdisk.slice_eq]
  have hsub : rootRows.filter isoSubdirectory = [directoryRecord 19 2048 2 (ascii "DISK")] := by
    decide +kernel
  have hnosub : diskRows.filter isoSubdirectory = [] := by decide +kernel
  have hinside : ∀ key ∈ [(18, 2048), (19, 2048)], ¬OutOfFile diskVolume 2048 key := by
    simp [OutOfFile, length_diskVolume]
  have hfirst : isoStep diskVolume 2048 ⟨[slice diskPvd 156 190], [], 0, []⟩ =
      .ok ⟨[directoryRecord 19 2048 2 (ascii "DISK")], [(18, 2048)], 5, []⟩ := by
    unfold isoStep
    simp only [hrootKey, hrootContent]
    rw [if_neg List.not_mem_nil, if_neg (hinside _ (by simp)),
      isoRecords_laidOut (fun row hrow => rows_laidOut row (List.mem_append_left _ hrow))
        (by decide +kernel), hsub]
    rfl
  have hsecond : isoStep diskVolume 2048
      ⟨[directoryRecord 19 2048 2 (ascii "DISK")], [(18, 2048)], 5, []⟩ =
        .ok ⟨[], [(19, 2048), (18, 2048)], 9, []⟩ := by
    unfold isoStep
    simp only [hdiskKey, hdiskContent]
    rw [if_neg (by decide), if_neg (hinside _ (by simp)),
      isoRecords_laidOut (fun row hrow => rows_laidOut row (List.mem_append_right _ hrow))
        (by decide +kernel), hnosub]
    rfl
  have hfuels : ∀ length : ℕ, ∃ fuel, 2 ^ 64 * (length + 1) = fuel + 1 := fun length =>
    Nat.exists_eq_succ_of_ne_zero
      (Nat.mul_ne_zero (Nat.two_pow_pos 64).ne' (Nat.succ_ne_zero length))
  obtain ⟨fuel, hfuel⟩ := hfuels diskVolume.length
  have hpasses : isoGoesOn maxNodes ⟨[slice diskPvd 156 190], [], 0, []⟩ = true ∧
      isoGoesOn maxNodes ⟨[directoryRecord 19 2048 2 (ascii "DISK")], [(18, 2048)], 5, []⟩ = true ∧
        isoGoesOn maxNodes ⟨[], [(19, 2048), (18, 2048)], 9, []⟩ = false := by
    simp only [isoGoesOn, decide_eq_true_eq, decide_eq_false_iff_not]
    exact ⟨⟨List.cons_ne_nil _ _, by omega⟩, ⟨List.cons_ne_nil _ _, by omega⟩, fun h => h.1 rfl⟩
  rw [isoDirectories, hfuel, Loop.run_of_pass hpasses.1 hfirst,
    Loop.run_of_pass hpasses.2.1 hsecond, Loop.run_of_stopped hpasses.2.2]
  exact if_neg (not_or.2 ⟨not_not.2 rfl, Nat.not_le.2 hnodes⟩)

/-- Nothing of the volume lies outside the file. -/
theorem diskVolume_in_file : ∃ pvd, (volumeDescriptors diskVolume).pvd = some pvd ∧
    ExtentsInFile diskVolume 2048 (slice pvd 156 190) := by
  have hmark : slice diskPvd 1 6 = ascii "CD001" := by decide +kernel
  have hrecognised : recognised diskVolume = some .iso9660 := by
    refine recognised_zeros ?_ ?_
    · rw [slice_append_left (by rw [length_diskPvd]; decide), hmark]
    · simp only [List.length_append, length_diskPvd, length_terminator, length_rootSector,
        length_diskSector, length_fileSectors]
      decide
  obtain ⟨v, hv, hformat, hstate⟩ := valid_of_directories .default 1000 hrecognised
    volumeDescriptors_diskVolume (by decide +kernel) (by rw [length_diskVolume]; decide +kernel)
    (isoDirectories_diskVolume (by decide +kernel))
  exact valid_iso_in_file hv hformat hstate

end StructuralValidator

end AVBox
