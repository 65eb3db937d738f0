import AVBox.Analyzers.ExecutableErrors
import Mathlib.Order.Lattice.Nat

/-!
# PE files

What `_parse_pe` requires of the headers of a file (`PeReadable`) and what it reads there.
`parsePe_eq_ok_iff` says that beyond these headers only the import and export tables decide whether
a file is accepted.

The second half is about the overlay.  The file is laid out up to the largest end among the
section-header table, the sections with raw data and the certificates (`PeEnd`), and what follows
is the overlay.  `parsePe` takes the maximum of other numbers: those of sections without raw data,
which no range check covers, and of a security directory wherever it points, are among them, and
the section-header table is not.  `overlay_reported_iff` says when the two agree.
-/

namespace AVBox

open Binary Fallible

namespace Executable

section Headers

variable (data : Bytes) (offset : ℕ)

/-- The file is a PE32+ file. -/
def peIs64 : Bool := le16 data (offset + 24) == 0x20B

/-- The number of sections. -/
def peSectionCount : ℕ := le16 data (offset + 6)

/-- Where the section-header table starts. -/
def peSectionTable : ℕ := offset + 24 + le16 data (offset + 20)

/-- The number of data directories. -/
def peDirectoryCount : ℕ :=
  min (le32 data (offset + 24 + if peIs64 data offset then 108 else 92)) 16

/-- Where the data directories start. -/
def peDirectoryTable : ℕ := offset + 24 + if peIs64 data offset then 112 else 96

/-- A data directory as it stands in the file. -/
def peDirectoryRow (index : ℕ) : PeDirectory :=
  let row := peDirectoryTable data offset + index * 8
  { index := index
    name := directoryNames.getD index ""
    rva := le32 data row
    size := le32 data (row + 4) }

/-- A section header as it stands in the file. -/
def peSectionRow (index : ℕ) : PeSection :=
  let row := peSectionTable data offset + index * 40
  { index := index
    name := PyStr.decodeAscii ((slice data row (row + 8)).takeWhile (· ≠ 0))
    rva := le32 data (row + 12)
    virtualSize := le32 data (row + 8)
    rawOffset := le32 data (row + 20)
    rawSize := le32 data (row + 16)
    characteristics := le32 data (row + 36) }

/-- The data directories. -/
def peDirectories : List PeDirectory :=
  (List.range (peDirectoryCount data offset)).map (peDirectoryRow data offset)

/-- The sections. -/
def peSections : List PeSection :=
  (List.range (peSectionCount data offset)).map (peSectionRow data offset)

/-- The headers lie in the file, are of sizes that go together and say that this is a PE file. -/
structure PeHeader : Prop where
  coff : offset + 24 ≤ data.length
  count : peSectionCount data offset ≤ maxSections
  optional : peSectionTable data offset ≤ data.length
  magic : le16 data (offset + 24) = 0x10B ∨ le16 data (offset + 24) = 0x20B
  minimum : peDirectoryTable data offset ≤ peSectionTable data offset

/-- So do the tables and the raw data of the sections. -/
structure PeReadable : Prop extends PeHeader data offset where
  directories : peDirectoryTable data offset + peDirectoryCount data offset * 8 ≤ data.length
  table : peSectionTable data offset + peSectionCount data offset * 40 ≤ data.length
  raw : ∀ row ∈ peSections data offset, row.rawSize ≠ 0 →
    row.rawOffset + row.rawSize ≤ data.length

/-- What is reported of a file with these imports and exports. -/
def peReport (imports : List PeImport) (exports : List PeExport) : ParsedExecutable :=
  let optional := offset + 24
  { format := if peIs64 data offset then "PE32+" else "PE32"
    architecture := named peMachines (le16 data (offset + 4))
      s!"COFF_MACHINE_0x{upper (hexDigits 4 (le16 data (offset + 4)))}"
    observations := .pe
      { dosHeaderPresent := true
        peSignature := "PE\\0\\0"
        machine := le16 data (offset + 4)
        timestampRaw := le32 data (offset + 8)
        characteristics := le16 data (offset + 22)
        sectionCount := peSectionCount data offset }
      { entryPointRva := le32 data (optional + 16)
        imageBase :=
          if peIs64 data offset then le64 data (optional + 24) else le32 data (optional + 28)
        subsystem := le16 data (optional + 68)
        dllCharacteristics := le16 data (optional + 70) }
      (peSections data offset) (peDirectories data offset) imports exports
      (peOverlay data (peSectionTable data offset) (peSectionCount data offset)
        (peSections data offset) (peDirectories data offset))
    assessments := []
    errors := [] }

end Headers

variable {data : Bytes} {offset : ℕ}

/-! ## What is accepted -/

lemma peDirectory_eq_ok {index : ℕ} {row : PeDirectory} :
    peDirectory data (peDirectoryTable data offset) index = .ok row ↔
      row = peDirectoryRow data offset index ∧
        peDirectoryTable data offset + index * 8 + 8 ≤ data.length := by
  unfold peDirectory
  constructor
  · intro h
    obtain ⟨_, hneed, hrow⟩ := bind_eq_ok.1 h
    exact ⟨(unpackFrom_eq_ok.1 hrow).2, need_eq_ok.1 hneed⟩
  · rintro ⟨rfl, hfits⟩
    rw [need_bind hfits, unpackFrom_of_fits _ hfits]
    rfl

lemma peSection_eq_ok {index : ℕ} {row : PeSection} :
    peSection data (peSectionTable data offset) index = .ok row ↔
      row = peSectionRow data offset index ∧
        peSectionTable data offset + index * 40 + 40 ≤ data.length ∧
        (row.rawSize ≠ 0 → row.rawOffset + row.rawSize ≤ data.length) := by
  unfold peSection
  constructor
  · intro h
    obtain ⟨_, hneed, h⟩ := bind_eq_ok.1 h
    have hfits := need_eq_ok.1 hneed
    rw [unpackFrom_bind (by omega), unpackFrom_bind (by omega)] at h
    dsimp only at h
    split at h
    · cases h
    · next hraw =>
        obtain rfl := Except.ok.inj h
        refine ⟨rfl, hfits, fun hsize => ?_⟩
        dsimp only at hsize hraw ⊢
        omega
  · rintro ⟨rfl, hfits, hraw⟩
    rw [need_bind hfits, unpackFrom_bind (by omega), unpackFrom_bind (by omega)]
    dsimp only [peSectionRow] at hraw ⊢
    rw [if_neg (by omega)]
    rfl

/-- Rows of a table that starts in the file are in the file if the table is. -/
lemma rows_fit_iff {start size count limit : ℕ} (hstart : start ≤ limit) :
    (∀ index ∈ List.range count, start + index * size + size ≤ limit) ↔
      start + count * size ≤ limit := by
  constructor
  · intro h
    rcases count with _ | last
    · omega
    · have hlast := h last (List.mem_range.2 (by omega))
      rw [Nat.succ_mul]
      omega
  · intro h index hindex
    have hle : (index + 1) * size ≤ count * size :=
      Nat.mul_le_mul_right size (List.mem_range.1 hindex)
    rw [Nat.succ_mul] at hle
    omega

lemma mapM_peDirectory_eq_ok (hstart : peDirectoryTable data offset ≤ data.length)
    {directories : List PeDirectory} :
    (List.range (peDirectoryCount data offset)).mapM
        (peDirectory data (peDirectoryTable data offset)) = .ok directories ↔
      directories = peDirectories data offset ∧
        peDirectoryTable data offset + peDirectoryCount data offset * 8 ≤ data.length := by
  rw [mapM_eq_ok_iff_map (g := peDirectoryRow data offset)
    fun index _ row h => (peDirectory_eq_ok.1 h).1, ← rows_fit_iff hstart]
  refine and_congr_right fun _ => forall₂_congr fun index _ => ?_
  rw [peDirectory_eq_ok, and_iff_right rfl]

lemma mapM_peSection_eq_ok (hstart : peSectionTable data offset ≤ data.length)
    {sections : List PeSection} :
    (List.range (peSectionCount data offset)).mapM
        (peSection data (peSectionTable data offset)) = .ok sections ↔
      sections = peSections data offset ∧
        peSectionTable data offset + peSectionCount data offset * 40 ≤ data.length ∧
        ∀ row ∈ peSections data offset, row.rawSize ≠ 0 →
          row.rawOffset + row.rawSize ≤ data.length := by
  rw [mapM_eq_ok_iff_map (g := peSectionRow data offset)
    fun index _ row h => (peSection_eq_ok.1 h).1, ← rows_fit_iff hstart]
  refine and_congr_right fun _ => ?_
  rw [peSections, List.forall_mem_map, ← forall₂_and]
  refine forall₂_congr fun index _ => ?_
  rw [peSection_eq_ok, and_iff_right rfl]

lemma yields_header : Yields (fun _ => PeHeader data offset) (parsePe data offset) := by
  unfold parsePe
  refine .bind fun _ hneed => ?_
  have hcoff := need_eq_ok.1 hneed
  rw [unpackFrom_bind (by omega)]
  refine .ite (fun _ => .error _) fun hcount => .bind fun _ hneed => .bind fun magic hread => ?_
  obtain ⟨-, rfl⟩ := unpackFrom_eq_ok.1 hread
  refine .ite (fun _ => .error _) fun hmagic => .ite (fun _ => .error _) fun hminimum _ _ => ?_
  refine ⟨hcoff, not_lt.1 hcount, need_eq_ok.1 hneed, by omega, ?_⟩
  exact Nat.add_le_add_left (not_lt.1 hminimum) _

/-- Behind headers that are in order come the tables. -/
lemma parsePe_of_header (h : PeHeader data offset) :
    parsePe data offset = (do
      let directories ← (List.range (peDirectoryCount data offset)).mapM
        (peDirectory data (peDirectoryTable data offset))
      let sections ← (List.range (peSectionCount data offset)).mapM
        (peSection data (peSectionTable data offset))
      let imports ← peImports data sections (peIs64 data offset) directories
      let exports ← peExports data sections directories
      return {
        format := if peIs64 data offset then "PE32+" else "PE32"
        architecture := named peMachines (le16 data (offset + 4))
          s!"COFF_MACHINE_0x{upper (hexDigits 4 (le16 data (offset + 4)))}"
        observations := .pe
          { dosHeaderPresent := true
            peSignature := "PE\\0\\0"
            machine := le16 data (offset + 4)
            timestampRaw := le32 data (offset + 8)
            characteristics := le16 data (offset + 22)
            sectionCount := peSectionCount data offset }
          { entryPointRva := le32 data (offset + 24 + 16)
            imageBase :=
              if peIs64 data offset then le64 data (offset + 24 + 24)
              else le32 data (offset + 24 + 28)
            subsystem := le16 data (offset + 24 + 68)
            dllCharacteristics := le16 data (offset + 24 + 70) }
          sections directories imports exports
          (peOverlay data (peSectionTable data offset) (peSectionCount data offset) sections
            directories)
        assessments := []
        errors := [] }) := by
  obtain ⟨hcoff, hcount, hoptional, hmagic, hminimum⟩ := h
  unfold peSectionTable at hoptional
  unfold peDirectoryTable peSectionTable at hminimum
  unfold peSectionCount at hcount
  unfold parsePe peDirectoryCount peDirectoryTable peSectionCount peSectionTable
  rw [need_bind hcoff, unpackFrom_bind (by omega)]
  dsimp only
  have hsize : offset + 24 + 96 ≤ data.length := by
    split at hminimum <;> omega
  rw [if_neg (by omega), need_bind hoptional, unpackFrom_bind (by omega), if_neg (by omega)]
  unfold peIs64 at hminimum ⊢
  cases is64 : le16 data (offset + 24) == 0x20B <;>
    simp only [is64, if_true, if_false, Bool.false_eq_true] at hminimum ⊢
  all_goals
    rw [if_neg (by omega), unpackFrom_bind (by omega), unpackFrom_bind (by omega),
      unpackFrom_bind (by omega)]
    dsimp only
    rw [unpackFrom_bind (by omega)]

/-- Reading on behind the headers. -/
lemma parsePe_of_readable (h : PeReadable data offset) :
    parsePe data offset = (do
      let imports ← peImports data (peSections data offset) (peIs64 data offset)
        (peDirectories data offset)
      let exports ← peExports data (peSections data offset) (peDirectories data offset)
      return peReport data offset imports exports) := by
  rw [parsePe_of_header h.toPeHeader,
    (mapM_peDirectory_eq_ok (h.minimum.trans h.optional)).2 ⟨rfl, h.directories⟩, ok_bind,
    (mapM_peSection_eq_ok h.optional).2 ⟨rfl, h.table, h.raw⟩, ok_bind]
  rfl

lemma readable_of_parsePe {parsed : ParsedExecutable} (h : parsePe data offset = .ok parsed) :
    PeReadable data offset := by
  have hheader := yields_header parsed h
  rw [parsePe_of_header hheader] at h
  obtain ⟨directories, hdirectories, hrest⟩ := bind_eq_ok.1 h
  obtain ⟨sections, hsections, -⟩ := bind_eq_ok.1 hrest
  obtain ⟨-, hfits⟩ :=
    (mapM_peDirectory_eq_ok (hheader.minimum.trans hheader.optional)).1 hdirectories
  obtain ⟨-, htable, hraw⟩ := (mapM_peSection_eq_ok hheader.optional).1 hsections
  exact ⟨hheader, hfits, htable, hraw⟩

/-- The headers decide everything but the import and export tables. -/
theorem parsePe_eq_ok_iff {parsed : ParsedExecutable} :
    parsePe data offset = .ok parsed ↔
      PeReadable data offset ∧ ∃ imports exports,
        peImports data (peSections data offset) (peIs64 data offset) (peDirectories data offset) =
            .ok imports ∧
          peExports data (peSections data offset) (peDirectories data offset) = .ok exports ∧
          parsed = peReport data offset imports exports := by
  constructor
  · intro h
    have hreadable := readable_of_parsePe h
    rw [parsePe_of_readable hreadable] at h
    obtain ⟨imports, himports, hrest⟩ := bind_eq_ok.1 h
    obtain ⟨exports, hexports, hreport⟩ := bind_eq_ok.1 hrest
    exact ⟨hreadable, imports, exports, himports, hexports, (Except.ok.inj hreport).symm⟩
  · rintro ⟨h, imports, exports, himports, hexports, rfl⟩
    rw [parsePe_of_readable h, himports, ok_bind, hexports, ok_bind]
    rfl

/-! ## The overlay -/

/-- The overlay that is reported. -/
def ParsedExecutable.overlay (parsed : ParsedExecutable) : Option PeOverlay :=
  match parsed.observations with
  | .pe _ _ _ _ _ _ overlay => some overlay
  | _ => none

lemma overlay_peReport (imports : List PeImport) (exports : List PeExport) :
    (peReport data offset imports exports).overlay =
      some (peOverlay data (peSectionTable data offset) (peSectionCount data offset)
        (peSections data offset) (peDirectories data offset)) := rfl

section Overlay

variable (data : Bytes) (offset : ℕ)

/-- The end of the section-header table. -/
def peTableEnd : ℕ := peSectionTable data offset + peSectionCount data offset * 40

/-- The security directory, unless there is none. -/
def peSecurity : Option PeDirectory := (peDirectories data offset)[4]?.filter fun row => row.rva ≠ 0

/-- A part of the file ends here: the section-header table, a section with raw data, or the
certificates if they lie in the file. -/
inductive PeEnd : ℕ → Prop
  | table : PeEnd (peTableEnd data offset)
  | raw (row : PeSection) (hrow : row ∈ peSections data offset) (hraw : row.rawSize ≠ 0) :
      PeEnd (row.rawOffset + row.rawSize)
  | certificates (row : PeDirectory) (hrow : row ∈ peSecurity data offset)
      (hfile : row.rva + row.size ≤ data.length) : PeEnd (row.rva + row.size)

/-- What the overlay is compared with: the section-header table of a file without sections, every
section, and every security directory. -/
inductive Counted : ℕ → Prop
  | table (hnone : peSections data offset = []) : Counted (peTableEnd data offset)
  | raw (row : PeSection) (hrow : row ∈ peSections data offset) :
      Counted (row.rawOffset + row.rawSize)
  | certificates (row : PeDirectory) (hrow : row ∈ peSecurity data offset) :
      Counted (row.rva + row.size)

/-- The overlay is what follows the last part of the file. -/
def FollowsLastPart (overlay : PeOverlay) : Prop :=
  ∃ stop, IsGreatest {e | PeEnd data offset e} stop ∧ overlay.size = data.length - stop ∧
    (overlay.present = true ↔ 0 < data.length - stop)

/-- Nothing that is compared hides the overlay or shows one that is not there: a section or the
security directory reaches the end of the section-header table, no section without raw data points
behind every part of the file, and the security directory points out of the file only if a part of
the file ends with it. -/
structure OverlayInSight : Prop where
  table : peSections data offset = [] ∨ ∃ e, Counted data offset e ∧ peTableEnd data offset ≤ e
  empty : ∀ row ∈ peSections data offset, row.rawSize = 0 →
    PeEnd data offset data.length ∨ ∃ e, PeEnd data offset e ∧ row.rawOffset ≤ e
  outside : ∀ row ∈ peSecurity data offset, data.length < row.rva + row.size →
    PeEnd data offset data.length

variable {data offset}

/-- The largest end of a section. -/
lemma isGreatest_raw {stop : ℕ}
    (h : ((peSections data offset).map fun row => row.rawOffset + row.rawSize).max?.getD
      (peTableEnd data offset) = stop) :
    Counted data offset stop ∧
      ∀ row ∈ peSections data offset, row.rawOffset + row.rawSize ≤ stop := by
  cases hmax : ((peSections data offset).map fun row => row.rawOffset + row.rawSize).max? with
  | none =>
      have hnone := List.map_eq_nil_iff.1 (List.max?_eq_none_iff.1 hmax)
      rw [hmax, Option.getD_none] at h
      exact h ▸ ⟨.table hnone, by simp [hnone]⟩
  | some last =>
      rw [hmax, Option.getD_some] at h
      subst h
      obtain ⟨hmem, hle⟩ := List.max?_eq_some_iff.1 hmax
      obtain ⟨row, hrow, rfl⟩ := List.mem_map.1 hmem
      exact ⟨.raw row hrow, fun other hother => hle _ (List.mem_map_of_mem hother)⟩

/-- The end of the security directory. -/
lemma security_end :
    ((peDirectories data offset)[4]?.map fun row =>
        if row.rva = 0 then 0 else row.rva + row.size).getD 0 =
      ((peSecurity data offset).map fun row => row.rva + row.size).getD 0 := by
  unfold peSecurity
  cases (peDirectories data offset)[4]? with
  | none => rfl
  | some row =>
      by_cases hrva : row.rva = 0 <;> simp [Option.filter_some, hrva]

lemma isGreatest_peOverlay :
    IsGreatest {e | Counted data offset e}
      (peOverlay data (peSectionTable data offset) (peSectionCount data offset)
        (peSections data offset) (peDirectories data offset)).offset := by
  change IsGreatest _ (max (List.max? _ |>.getD (peTableEnd data offset)) _)
  rw [security_end]
  obtain ⟨hraw, hle⟩ := @isGreatest_raw data offset _ rfl
  cases hsecurity : peSecurity data offset with
  | none =>
      rw [Option.map_none, Option.getD_none, Nat.max_zero]
      refine ⟨hraw, fun e he => ?_⟩
      cases he with
      | table hnone => rw [hnone]; exact le_rfl
      | raw row hrow => exact hle row hrow
      | certificates row hrow => rw [hsecurity] at hrow; cases hrow
  | some security =>
      rw [Option.map_some, Option.getD_some]
      constructor
      · rcases max_choice _ (security.rva + security.size) with hmax | hmax <;> rw [hmax]
        exacts [hraw, .certificates security hsecurity]
      · intro e he
        cases he with
        | table hnone => rw [hnone]; exact le_max_left _ _
        | raw row hrow => exact (hle row hrow).trans (le_max_left _ _)
        | certificates row hrow =>
            obtain rfl := Option.some.inj (hsecurity.symm.trans hrow)
            exact le_max_right _ _

lemma size_peOverlay (sectionOffset sectionCount : ℕ) (sections : List PeSection)
    (directories : List PeDirectory) :
    (peOverlay data sectionOffset sectionCount sections directories).size =
      data.length - (peOverlay data sectionOffset sectionCount sections directories).offset := rfl

lemma present_peOverlay (sectionOffset sectionCount : ℕ) (sections : List PeSection)
    (directories : List PeDirectory) :
    (peOverlay data sectionOffset sectionCount sections directories).present = true ↔
      0 < data.length - (peOverlay data sectionOffset sectionCount sections directories).offset :=
  decide_eq_true_iff

lemma PeEnd.le_length (h : PeReadable data offset) {e : ℕ} (he : PeEnd data offset e) :
    e ≤ data.length := by
  cases he with
  | table => exact h.table
  | raw row hrow hraw => exact h.raw row hrow hraw
  | certificates row hrow hfile => exact hfile

lemma exists_isGreatest_peEnd (h : PeReadable data offset) :
    ∃ stop, IsGreatest {e | PeEnd data offset e} stop :=
  have hbound : BddAbove {e | PeEnd data offset e} := ⟨data.length, fun _ he => he.le_length h⟩
  ⟨_, Nat.sSup_mem ⟨_, .table⟩ hbound, fun _ he => le_csSup hbound he⟩

/-- What is compared reaches the last part. -/
lemma OverlayInSight.reaches (h : OverlayInSight data offset) {start e : ℕ}
    (hstart : IsGreatest {e | Counted data offset e} start) (he : PeEnd data offset e) :
    e ≤ start := by
  cases he with
  | table =>
      rcases h.table with hnone | ⟨e, he, hle⟩
      · exact hstart.2 (.table hnone)
      · exact hle.trans (hstart.2 he)
  | raw row hrow _ => exact hstart.2 (.raw row hrow)
  | certificates row hrow _ => exact hstart.2 (.certificates row hrow)

/-- It does not reach beyond, unless the last part ends the file. -/
lemma OverlayInSight.stays (h : OverlayInSight data offset) {stop e : ℕ}
    (hstop : IsGreatest {e | PeEnd data offset e} stop) (he : Counted data offset e) :
    e ≤ stop ∨ data.length ≤ stop := by
  cases he with
  | table => exact .inl (hstop.2 .table)
  | raw row hrow =>
      by_cases hraw : row.rawSize = 0
      · rcases h.empty row hrow hraw with hend | ⟨e, he, hle⟩
        · exact .inr (hstop.2 hend)
        · have := hstop.2 he
          exact .inl (by omega)
      · exact .inl (hstop.2 (.raw row hrow hraw))
  | certificates row hrow =>
      by_cases hfile : row.rva + row.size ≤ data.length
      · exact .inl (hstop.2 (.certificates row hrow hfile))
      · exact .inr (hstop.2 (h.outside row hrow (by omega)))

lemma OverlayInSight.size_eq (h : OverlayInSight data offset) {start stop : ℕ}
    (hstart : IsGreatest {e | Counted data offset e} start)
    (hstop : IsGreatest {e | PeEnd data offset e} stop) :
    data.length - start = data.length - stop := by
  have hreaches := h.reaches hstart hstop.1
  rcases h.stays hstop hstart.1 with hle | hle <;> omega

lemma inSight_of_size (h : PeReadable data offset) {start stop : ℕ}
    (hstart : IsGreatest {e | Counted data offset e} start)
    (hstop : IsGreatest {e | PeEnd data offset e} stop)
    (hsize : data.length - start = data.length - stop) : OverlayInSight data offset := by
  have hlength : stop ≤ data.length := PeEnd.le_length h hstop.1
  have htable : peTableEnd data offset ≤ stop := hstop.2 .table
  have hend (e : ℕ) (he : Counted data offset e) (hlt : stop < e) :
      PeEnd data offset data.length := by
    have hle : e ≤ start := hstart.2 he
    have hsame : stop = data.length := by omega
    exact hsame ▸ hstop.1
  refine ⟨.inr ⟨start, hstart.1, by omega⟩, fun row hrow hraw => ?_, fun row hrow hout => ?_⟩
  · by_cases hle : row.rawOffset ≤ stop
    · exact .inr ⟨stop, hstop.1, hle⟩
    · exact .inl (hend _ (.raw row hrow) (by omega))
  · exact hend _ (.certificates row hrow) (by omega)

end Overlay

/-- The reported overlay follows the last part of the file exactly when nothing that is compared
hides it. -/
theorem overlay_reported_iff {data : Bytes} {offset : ℕ} {parsed : ParsedExecutable}
    (h : parsePe data offset = .ok parsed) :
    (∃ overlay, parsed.overlay = some overlay ∧ FollowsLastPart data offset overlay) ↔
      OverlayInSight data offset := by
  obtain ⟨hreadable, imports, exports, -, -, rfl⟩ := parsePe_eq_ok_iff.1 h
  have hstart := @isGreatest_peOverlay data offset
  rw [overlay_peReport]
  constructor
  · rintro ⟨overlay, hoverlay, stop, hstop, hsize, -⟩
    rw [← Option.some.inj hoverlay, size_peOverlay] at hsize
    exact inSight_of_size hreadable hstart hstop hsize
  · intro hsight
    obtain ⟨stop, hstop⟩ := exists_isGreatest_peEnd hreadable
    have hsize := hsight.size_eq hstart hstop
    refine ⟨_, rfl, stop, hstop, ?_, ?_⟩
    · rw [size_peOverlay, hsize]
    · rw [present_peOverlay, hsize]

/-- A small PE32 file with these data directories, section headers and bytes behind them. -/
def peFile (directories sections body : Bytes) : Bytes :=
  ascii "MZ" ++ List.replicate 58 0 ++ [64, 0, 0, 0] ++ ascii "PE" ++ [0, 0, 0x4C, 1] ++
    [UInt8.ofNat (sections.length / 40), 0] ++ List.replicate 12 0 ++
    [UInt8.ofNat (96 + directories.length), 0, 0, 0, 0x0B, 1] ++ List.replicate 90 0 ++
    [UInt8.ofNat (directories.length / 8), 0, 0, 0] ++ directories ++ sections ++ body

/-- A file with one section, which has no raw data and points here, and an overlay. -/
def emptySection (rawOffset : Bytes) : Bytes :=
  peFile [] (List.replicate 20 0 ++ rawOffset ++ List.replicate 16 0) (ascii "last")

lemma emptySection_readable {rawOffset : Bytes}
    (h : rawOffset = [224, 0, 0, 0] ∨ rawOffset = [255, 255, 255, 255]) :
    PeReadable (emptySection rawOffset) 64 := by
  rcases h with rfl | rfl
  all_goals
    exact ⟨⟨by decide +kernel, by decide +kernel, by decide +kernel, by decide +kernel,
      by decide +kernel⟩, by decide +kernel, by decide +kernel, by decide +kernel⟩

lemma parsePe_emptySection {rawOffset : Bytes}
    (h : rawOffset = [224, 0, 0, 0] ∨ rawOffset = [255, 255, 255, 255]) :
    parsePe (emptySection rawOffset) 64 = .ok (peReport (emptySection rawOffset) 64 [] []) := by
  refine parsePe_eq_ok_iff.2 ⟨emptySection_readable h, [], [], ?_, ?_, rfl⟩
  all_goals
    rcases h with rfl | rfl <;> decide +kernel

theorem emptySection_overlay :
    (∃ overlay, (peReport (emptySection [224, 0, 0, 0]) 64 [] []).overlay = some overlay ∧
        FollowsLastPart (emptySection [224, 0, 0, 0]) 64 overlay) ↔
      OverlayInSight (emptySection [224, 0, 0, 0]) 64 :=
  overlay_reported_iff (parsePe_emptySection (.inl rfl))

/-- A section without raw data hides the overlay. -/
theorem empty_section_hides_overlay :
    ¬∀ data offset parsed, parsePe data offset = .ok parsed →
      ∃ overlay, parsed.overlay = some overlay ∧ FollowsLastPart data offset overlay := by
  intro h
  obtain ⟨overlay, hoverlay, stop, hstop, hsize, -⟩ :=
    h _ _ _ (parsePe_emptySection (.inr rfl))
  have hreported : overlay.size = 0 := by
    rw [← Option.some.inj hoverlay]
    decide +kernel
  have hlength : (emptySection [255, 255, 255, 255]).length = 228 := by decide +kernel
  have hend : stop = 224 := by
    cases hstop.1 with
    | table => decide +kernel
    | raw row hrow hraw =>
        have hnone : ∀ row ∈ peSections (emptySection [255, 255, 255, 255]) 64,
            row.rawSize = 0 := by
          decide +kernel
        exact absurd (hnone row hrow) hraw
    | certificates row hrow hfile =>
        have hnone : peSecurity (emptySection [255, 255, 255, 255]) 64 = none := by decide +kernel
        rw [hnone] at hrow
        cases hrow
  omega

end Executable

end AVBox
