import AVBox.Analyzers.Executable

/-!
# How the executable reader fails

Each part of the reader raises `ExecutableError` only (`raises_...`), with two exceptions.

* `PeCut`: the magic number of the PE optional header is read although only the declared size of
  that header has been checked.
* `ElfCut`: a dynamic entry of an ELF file is read at its full size although only the declared
  entry size has been taken into account.

`parseExecutable_raises_iff` says that these are all.
-/

namespace AVBox

open Binary Fallible Loop

namespace Executable

variable {data : Bytes}

/-! ## The primitives -/

lemma isExecutable (text : String) : IsExecutable (.executable text) := ⟨rfl, rfl⟩

lemma not_isExecutable_struct (offset size length : ℕ) :
    ¬IsExecutable (.struct offset size length) := by
  rintro ⟨hfamily, -⟩
  cases hfamily

lemma raises_throw {α : Type} (text : String) :
    Raises IsExecutable (.error (.executable text) : Except Exc α) := .error (isExecutable text)

lemma need_eq_ok {offset size : ℕ} {what : String} :
    need data offset size what = .ok () ↔ offset + size ≤ data.length := by
  unfold need
  split
  · next h =>
      constructor
      · intro h'
        cases h'
      · intro h'
        omega
  · next h =>
      constructor
      · intro _
        omega
      · intro _
        rfl

lemma raises_need (data : Bytes) (offset size : ℕ) (what : String) :
    Raises IsExecutable (need data offset size what) := by
  unfold need
  exact .ite (fun _ => raises_throw _) fun _ => .ok _

lemma need_bind {α : Type} {offset size : ℕ} {what : String} {rest : Unit → Except Exc α}
    (h : offset + size ≤ data.length) : (need data offset size what >>= rest) = rest () := by
  rw [need_eq_ok.2 h]
  rfl

/-- What `need` has checked can be read. -/
lemma raises_need_bind {α : Type} {offset size : ℕ} {what : String} {rest : Except Exc α}
    (h : offset + size ≤ data.length → Raises IsExecutable rest) :
    Raises IsExecutable (do need data offset size what; rest) :=
  .bind (raises_need data offset size what) fun _ hneed => h (need_eq_ok.1 hneed)

lemma unpackFrom_eq_ok {α : Type} {offset size : ℕ} {fields value : α} :
    unpackFrom data offset size fields = .ok value ↔
      offset + size ≤ data.length ∧ value = fields := by
  unfold unpackFrom
  split
  · next h =>
      constructor
      · intro h'
        cases h'
        exact ⟨h, rfl⟩
      · rintro ⟨-, rfl⟩
        rfl
  · next h =>
      constructor
      · intro h'
        cases h'
      · rintro ⟨h', -⟩
        exact absurd h' h

lemma unpackFrom_of_fits {α : Type} {offset size : ℕ} (fields : α)
    (h : offset + size ≤ data.length) : unpackFrom data offset size fields = .ok fields :=
  unpackFrom_eq_ok.2 ⟨h, rfl⟩

section

variable {α β : Type} {offset size : ℕ} {fields : α} {rest : α → Except Exc β}

lemma unpackFrom_bind (h : offset + size ≤ data.length) :
    (unpackFrom data offset size fields >>= rest) = rest fields := by
  rw [unpackFrom_of_fits fields h]
  rfl

lemma unpackFrom_bind_of_cut (h : data.length < offset + size) :
    (unpackFrom data offset size fields >>= rest) = .error (.struct offset size data.length) := by
  unfold unpackFrom
  rw [if_neg (by omega)]
  rfl

lemma raises_unpackFrom_bind (hfits : offset + size ≤ data.length)
    (h : Raises IsExecutable (rest fields)) :
    Raises IsExecutable (unpackFrom data offset size fields >>= rest) := by
  rw [unpackFrom_bind hfits]
  exact h

end

lemma byteAt_of_lt {i : ℕ} (h : i < data.length) : byteAt data i = .ok (u8 data i) := by
  unfold byteAt
  rw [if_pos h]

lemma raises_byteAt_bind {β : Type} {i : ℕ} {rest : ℕ → Except Exc β} (hlt : i < data.length)
    (h : Raises IsExecutable (rest (u8 data i))) :
    Raises IsExecutable (byteAt data i >>= rest) := by
  rw [byteAt_of_lt hlt]
  exact h

lemma raises_cstring (data : Bytes) (offset : ℕ) : Raises IsExecutable (cstring data offset) := by
  unfold cstring
  refine raises_need_bind fun _ => ?_
  split
  · exact raises_throw _
  · exact .ok _

/-! ## PE -/

lemma raises_rvaOffset (data : Bytes) (sections : List PeSection) (rva : ℕ) :
    Raises IsExecutable (rvaOffset data sections rva) := by
  unfold rvaOffset
  split
  · exact raises_throw _
  · exact raises_need_bind fun _ => .ok _

lemma raises_peDirectory (data : Bytes) (start index : ℕ) :
    Raises IsExecutable (peDirectory data start index) := by
  unfold peDirectory
  refine raises_need_bind fun hfits => ?_
  rw [unpackFrom_of_fits _ hfits]
  exact .ok _

lemma raises_peSection (data : Bytes) (sectionOffset index : ℕ) :
    Raises IsExecutable (peSection data sectionOffset index) := by
  unfold peSection
  refine raises_need_bind fun hfits => ?_
  refine raises_unpackFrom_bind (by omega) (raises_unpackFrom_bind (by omega) ?_)
  exact .ite (fun _ => raises_throw _) fun _ => .ok _

lemma raises_peThunk (data : Bytes) (sections : List PeSection) (is64 : Bool)
    (state : ℕ × List PeSymbol) : Raises IsExecutable (peThunk data sections is64 state) := by
  unfold peThunk
  refine raises_need_bind fun _ => ?_
  refine .ite (fun _ => .ok _) fun _ => .ite (fun _ => .ok _) fun _ => ?_
  refine .bind (raises_rvaOffset _ _ _) fun nameAt _ => raises_need_bind fun _ => ?_
  exact .bind (raises_cstring _ _) fun _ _ => .ok _

lemma raises_peDescriptor (data : Bytes) (sections : List PeSection) (is64 : Bool)
    (state : ℕ × List PeImport) : Raises IsExecutable (peDescriptor data sections is64 state) := by
  unfold peDescriptor
  refine raises_need_bind fun hfits => ?_
  refine raises_unpackFrom_bind hfits ?_
  refine .ite (fun _ => .ok _) fun _ => ?_
  refine .bind (raises_rvaOffset _ _ _) fun nameAt _ => .bind (raises_cstring _ _) fun _ _ => ?_
  refine .bind (raises_rvaOffset _ _ _) fun thunkCursor _ => ?_
  refine .bind ?_ fun _ _ => .ok _
  exact raises_forever (isExecutable _) (raises_peThunk data sections is64) _ _

lemma raises_peImports (data : Bytes) (sections : List PeSection) (is64 : Bool)
    (directories : List PeDirectory) :
    Raises IsExecutable (peImports data sections is64 directories) := by
  unfold peImports
  refine .ite (fun _ => .ok _) fun _ => .bind (raises_rvaOffset _ _ _) fun cursor _ => ?_
  exact raises_forever (isExecutable _) (raises_peDescriptor data sections is64) _ _

lemma raises_peExport (data : Bytes) (sections : List PeSection)
    (ordinalBase namesAt ordinalsAt index : ℕ) :
    Raises IsExecutable (peExport data sections ordinalBase namesAt ordinalsAt index) := by
  unfold peExport
  refine raises_need_bind fun hname => raises_need_bind fun hordinal => ?_
  refine raises_unpackFrom_bind hname (raises_unpackFrom_bind hordinal ?_)
  exact .bind (raises_rvaOffset _ _ _) fun _ _ => .bind (raises_cstring _ _) fun _ _ => .ok _

lemma raises_peExports (data : Bytes) (sections : List PeSection) (directories : List PeDirectory) :
    Raises IsExecutable (peExports data sections directories) := by
  unfold peExports
  refine .ite (fun _ => .ok _) fun _ => .bind (raises_rvaOffset _ _ _) fun exp _ => ?_
  refine raises_need_bind fun hfits => ?_
  refine raises_unpackFrom_bind (by omega) ?_
  refine .ite (fun _ => raises_throw _) fun _ => ?_
  refine .bind (raises_rvaOffset _ _ _) fun namesAt _ => ?_
  refine .bind (raises_rvaOffset _ _ _) fun ordinalsAt _ => ?_
  exact .mapM fun index _ => raises_peExport data sections _ namesAt ordinalsAt index

/-- The optional header of a PE file whose COFF header is in order starts at the end of the file
or in its last byte. -/
structure PeCut (data : Bytes) (offset : ℕ) : Prop where
  coff : offset + 24 ≤ data.length
  sections : le16 data (offset + 6) ≤ maxSections
  optional : offset + 24 + le16 data (offset + 20) ≤ data.length
  cut : data.length < offset + 24 + 2

lemma raises_parsePe {offset : ℕ} (h : ¬PeCut data offset) :
    Raises IsExecutable (parsePe data offset) := by
  unfold parsePe
  refine raises_need_bind fun hcoff => raises_unpackFrom_bind (by omega) ?_
  refine .ite (fun _ => raises_throw _) fun hsections => raises_need_bind fun hoptional => ?_
  have hmagic : offset + 24 + 2 ≤ data.length := by
    by_contra hcut
    exact h ⟨hcoff, by omega, hoptional, by omega⟩
  refine raises_unpackFrom_bind hmagic (.ite (fun _ => raises_throw _) fun _ => ?_)
  refine .ite (fun _ => raises_throw _) fun hsize => ?_
  cases is64 : le16 data (offset + 24) == 0x20B <;>
    simp only [is64, if_true, if_false, Bool.false_eq_true] at hsize ⊢
  all_goals
    refine raises_unpackFrom_bind (by omega) (raises_unpackFrom_bind (by omega) ?_)
    refine raises_unpackFrom_bind (by omega) (raises_unpackFrom_bind (by omega) ?_)
    refine .bind (.mapM fun index _ => raises_peDirectory _ _ index) fun directories _ => ?_
    refine .bind (.mapM fun index _ => raises_peSection _ _ index) fun sections _ => ?_
    refine .bind (raises_peImports _ _ _ _) fun imports _ => ?_
    exact .bind (raises_peExports _ _ _) fun exports _ => .ok _

lemma parsePe_of_cut {offset : ℕ} (h : PeCut data offset) :
    parsePe data offset = .error (.struct (offset + 24) 2 data.length) := by
  have hcoff := h.coff
  have hsections := h.sections
  unfold parsePe
  rw [need_bind hcoff, unpackFrom_bind (by omega)]
  dsimp only
  rw [if_neg (by omega), need_bind h.optional, unpackFrom_bind_of_cut h.cut]

/-! ## MZ -/

lemma raises_mzExtension (data : Bytes) (start : ℕ) :
    Raises IsExecutable (mzExtension data start) := by
  unfold mzExtension
  refine .ite (fun _ => raises_need_bind fun hfits => ?_) fun _ => .ite (fun _ => ?_) fun _ => .ok _
  · refine raises_byteAt_bind (by omega) (raises_byteAt_bind (by omega) ?_)
    refine raises_unpackFrom_bind (by omega) (raises_unpackFrom_bind (by omega) ?_)
    refine raises_unpackFrom_bind (by omega) (raises_unpackFrom_bind (by omega) ?_)
    exact raises_byteAt_bind (by omega) (raises_unpackFrom_bind (by omega) (.ok _))
  · refine raises_need_bind fun hfits => raises_unpackFrom_bind (by omega) ?_
    refine raises_byteAt_bind (by omega) (raises_byteAt_bind (by omega) ?_)
    refine raises_unpackFrom_bind (by omega) (raises_unpackFrom_bind (by omega) ?_)
    refine raises_unpackFrom_bind (by omega) (raises_unpackFrom_bind (by omega) ?_)
    exact raises_unpackFrom_bind (by omega) (.ok _)

/-- The MZ header is in order and leads to a PE header. -/
structure EntersPe (data : Bytes) : Prop where
  header : 64 ≤ data.length
  relocations : le16 data 6 ≤ maxHeaders
  table : le16 data 24 + le16 data 6 * 4 ≤ data.length
  present : le32 data 60 ≠ 0
  signature : slice data (le32 data 60) (le32 data 60 + 4) = ascii "PE" ++ [0, 0]

lemma raises_parseMz (h : EntersPe data → ¬PeCut data (le32 data 60)) :
    Raises IsExecutable (parseMz data) := by
  unfold parseMz
  refine raises_need_bind fun hheader => ?_
  refine raises_unpackFrom_bind (by omega) (raises_unpackFrom_bind (by omega) ?_)
  refine raises_unpackFrom_bind (by omega) (raises_unpackFrom_bind (by omega) ?_)
  refine .ite (fun _ => raises_throw _) fun htable => .ite (fun _ => .ok _) fun hpresent => ?_
  refine raises_need_bind fun _ => .ite (fun hsignature => ?_) fun _ => ?_
  · exact raises_parsePe (h ⟨hheader, by omega, by omega, hpresent, hsignature⟩)
  · exact .bind (raises_mzExtension _ _) fun _ _ => .ok _

lemma parseMz_of_enters (h : EntersPe data) : parseMz data = parsePe data (le32 data 60) := by
  have hheader := h.header
  have hrelocations := h.relocations
  have htable := h.table
  have hsize : le32 data 60 + 2 ≤ data.length := by
    have hlength := congrArg List.length h.signature
    have hfour : (ascii "PE" ++ [0, 0]).length = 4 := by decide
    rw [length_slice, hfour] at hlength
    omega
  unfold parseMz
  rw [need_bind (by omega), unpackFrom_bind (by omega)]
  dsimp only
  rw [unpackFrom_bind (by omega)]
  dsimp only
  rw [unpackFrom_bind (by omega), unpackFrom_bind (by omega), if_neg (by omega),
    if_neg h.present, need_bind hsize, if_pos h.signature]

/-! ## Mach-O -/

lemma raises_fatArchitecture (data : Bytes) (endian : Endian) {count index : ℕ}
    (hfits : 8 + count * 20 ≤ data.length) (hindex : index < count) :
    Raises IsExecutable (fatArchitecture data endian index) := by
  unfold fatArchitecture
  exact raises_unpackFrom_bind (by omega) (raises_need_bind fun _ => .ok _)

lemma raises_loadCommand (data : Bytes) (endian : Endian) (state : ℕ × List LoadCommand)
    (index : ℕ) : Raises IsExecutable (loadCommand data endian state index) := by
  unfold loadCommand
  refine raises_need_bind fun hfits => raises_unpackFrom_bind hfits ?_
  exact .ite (fun _ => raises_throw _) fun _ => raises_need_bind fun _ => .ok _

lemma raises_parseMacho (data : Bytes) : Raises IsExecutable (parseMacho data) := by
  have hfat (endian : Endian) : Raises IsExecutable (parseMachoFat data endian) := by
    unfold parseMachoFat
    refine raises_need_bind fun hheader => raises_unpackFrom_bind (by omega) ?_
    refine .ite (fun _ => raises_throw _) fun _ => raises_need_bind fun hfits => ?_
    refine .bind (.mapM fun index hindex => ?_) fun _ _ => .ok _
    exact raises_fatArchitecture data endian hfits (List.mem_range.1 hindex)
  have hthin (raw : ℕ) (endian : Endian) (is64 : Bool) :
      Raises IsExecutable (parseMachoThin data raw endian is64) := by
    unfold parseMachoThin
    refine raises_need_bind fun hheader => raises_unpackFrom_bind ?_ ?_
    · cases is64 <;> simp at hheader <;> omega
    refine .ite (fun _ => raises_throw _) fun _ => ?_
    refine .bind (.foldlM (fun state index _ => ?_) _) fun _ _ => .ok _
    exact raises_loadCommand data endian state index
  unfold parseMacho
  exact .ite (fun _ => hfat _) fun _ => .ite (fun _ => hfat _) fun _ => hthin _ _ _

/-! ## HUNK -/

/-- A pass that starts in the file leaves the cursor further on. -/
def Advances {α β : Type} (data : Bytes) (cursor : ℕ) : Next (ℕ × α) (ℕ × β) → Prop
  | .again state => cursor < state.1 ∧ cursor < data.length
  | .done result => cursor < result.1

lemma yields_need_bind {α : Type} {Q : α → Prop} {offset size : ℕ} {what : String}
    {rest : Except Exc α} (h : offset + size ≤ data.length → Yields Q rest) :
    Yields Q (do need data offset size what; rest) :=
  .bind fun _ hneed => h (need_eq_ok.1 hneed)

/-- A loop over such passes ends, and ends further on. -/
lemma yields_forever {α β : Type} {body : ℕ × α → Except Exc (Next (ℕ × α) (ℕ × β))}
    (hbody : ∀ s, Yields (Advances data s.1) (body s)) (fuel cursor : ℕ) (value : α) :
    Yields (fun result => cursor < result.1)
      (forever .unending body fuel (cursor, value)) := by
  intro result h
  have hagain : ∀ {s s' : ℕ × α}, cursor ≤ s.1 → body s = .ok (.again s') → cursor ≤ s'.1 := by
    intro s s' hle hs
    have hlt := (hbody s _ hs).1
    omega
  refine forever_ok (Q := fun result => cursor < result.1) hagain ?_ (Nat.le_refl cursor) h
  intro s value hle hs
  have hlt : s.1 < value.1 := hbody s _ hs
  omega

lemma raises_forever_advances {α β : Type} {body : ℕ × α → Except Exc (Next (ℕ × α) (ℕ × β))}
    (hraises : ∀ s, Raises IsExecutable (body s))
    (hbody : ∀ s, Yields (Advances data s.1) (body s)) (state : ℕ × α) :
    Raises IsExecutable (forever .unending body (data.length + 1) state) := by
  have hagain : ∀ {s s' : ℕ × α}, body s = .ok (.again s') →
      data.length - s'.1 < data.length - s.1 := by
    intro s s' hs
    obtain ⟨hlt, hin⟩ := hbody s _ hs
    omega
  exact raises_forever_of_measure hraises hagain (by omega)

lemma raises_hunkResident (data : Bytes) (state : ℕ × List PyStr) :
    Raises IsExecutable (hunkResident data state) := by
  unfold hunkResident
  refine raises_need_bind fun _ => .ite (fun _ => .ok _) fun _ => .ite (fun _ => raises_throw _) ?_
  exact fun _ => raises_need_bind fun _ => .ok _

lemma advances_hunkResident (data : Bytes) (state : ℕ × List PyStr) :
    Yields (Advances data state.1) (hunkResident data state) := by
  unfold hunkResident
  refine yields_need_bind fun hfits => .ite (fun _ => .ok ?_) fun _ => .ite (fun _ => .error _) ?_
  · dsimp only [Advances]
    omega
  · refine fun _ => yields_need_bind fun _ => .ok ⟨?_, ?_⟩
    · dsimp only
      omega
    · omega

lemma raises_hunkGroup (data : Bytes) (name : String) (state : ℕ × List Relocations) :
    Raises IsExecutable (hunkGroup data name state) := by
  unfold hunkGroup
  refine raises_need_bind fun _ => .ite (fun _ => .ok _) fun _ => .ite (fun _ => raises_throw _) ?_
  intro _
  exact raises_need_bind fun _ => raises_unpackFrom_bind (by omega) (.ok _)

lemma advances_hunkGroup (data : Bytes) (name : String) (state : ℕ × List Relocations) :
    Yields (Advances data state.1) (hunkGroup data name state) := by
  unfold hunkGroup
  refine yields_need_bind fun hfits => .ite (fun _ => .ok ?_) fun _ => .ite (fun _ => .error _) ?_
  · dsimp only [Advances]
    omega
  · refine fun _ => yields_need_bind fun _ => .bind fun _ _ => .ok ⟨?_, ?_⟩
    · dsimp only
      omega
    · omega

lemma raises_hunkSymbol (data : Bytes) (state : ℕ × List HunkSymbol) :
    Raises IsExecutable (hunkSymbol data state) := by
  unfold hunkSymbol
  refine raises_need_bind fun _ => .ite (fun _ => .ok _) fun _ => .ite (fun _ => raises_throw _) ?_
  exact fun _ => raises_need_bind fun _ => .ok _

lemma advances_hunkSymbol (data : Bytes) (state : ℕ × List HunkSymbol) :
    Yields (Advances data state.1) (hunkSymbol data state) := by
  unfold hunkSymbol
  refine yields_need_bind fun hfits => .ite (fun _ => .ok ?_) fun _ => .ite (fun _ => .error _) ?_
  · dsimp only [Advances]
    omega
  · refine fun _ => yields_need_bind fun _ => .ok ⟨?_, ?_⟩
    · dsimp only
      omega
    · omega

lemma raises_hunkBody (data : Bytes) (name : String) (hunkType cursor : ℕ) :
    Raises IsExecutable (hunkBody data name hunkType cursor) := by
  unfold hunkBody
  refine .ite (fun _ => raises_need_bind fun _ => ?_) fun _ => .ite (fun _ => ?_) fun _ => ?_
  · exact .ite (fun _ => raises_need_bind fun _ => .ok _) fun _ => .ok _
  · refine .bind (raises_forever_advances ?_ ?_ _) fun _ _ => .ok _
    · exact raises_hunkGroup data name
    · exact advances_hunkGroup data name
  · refine .ite (fun _ => ?_) fun _ => .ite (fun _ => .ok _) fun _ => .ok _
    refine .bind (raises_forever_advances ?_ ?_ _) fun _ _ => .ok _
    · exact raises_hunkSymbol data
    · exact advances_hunkSymbol data

lemma hunkBody_stop (data : Bytes) (name : String) (hunkType cursor : ℕ) :
    Yields (fun result => cursor ≤ result.2) (hunkBody data name hunkType cursor) := by
  unfold hunkBody
  refine .ite (fun _ => yields_need_bind fun _ => ?_) fun _ => .ite (fun _ => ?_) fun _ => ?_
  · refine .ite (fun _ => yields_need_bind fun _ => .ok ?_) fun _ => .ok ?_
    · dsimp only
      omega
    · dsimp only
      omega
  · refine .bind fun result hresult => .ok ?_
    exact (yields_forever (advances_hunkGroup data name) _ cursor [] result hresult).le
  · refine .ite (fun _ => .bind fun result hresult => .ok ?_) fun _ => ?_
    · exact (yields_forever (advances_hunkSymbol data) _ cursor [] result hresult).le
    · exact .ite (fun _ => .ok (Nat.le_refl cursor)) fun _ => .ok (Nat.le_refl cursor)

lemma raises_hunkPass (data : Bytes) (tableSize : ℕ) (state : HunkState) :
    Raises IsExecutable (hunkPass data tableSize state) := by
  unfold hunkPass
  refine .ite (fun _ => .ok _) fun _ => raises_need_bind fun _ => ?_
  refine .bind (raises_hunkBody _ _ _ _) fun _ _ => .ite (fun _ => .ok _) fun _ => ?_
  exact .ite (fun _ => .ok _) fun _ => .ite (fun _ => raises_throw _) fun _ => .ok _

lemma hunkPass_again {tableSize : ℕ} {state state' : HunkState}
    (h : hunkPass data tableSize state = .ok (.again state')) :
    data.length - state'.cursor < data.length - state.cursor := by
  have hyields : Yields (fun next => ∀ state', next = .again state' →
      data.length - state'.cursor < data.length - state.cursor)
      (hunkPass data tableSize state) := by
    unfold hunkPass
    refine .ite (fun _ => .ok (by rintro _ ⟨⟩)) fun _ => yields_need_bind fun hfits => ?_
    refine .bind fun result hresult => ?_
    have hstop := hunkBody_stop _ _ _ _ result hresult
    refine .ite (fun _ => .ok (by rintro _ ⟨⟩)) fun _ => .ite (fun _ => .ok (by rintro _ ⟨⟩)) ?_
    refine fun _ => .ite (fun _ => .error _) fun _ => .ok ?_
    rintro _ ⟨⟩
    dsimp only
    omega
  exact hyields _ h state' rfl

lemma raises_parseHunk (data : Bytes) : Raises IsExecutable (parseHunk data) := by
  unfold parseHunk
  refine .bind (raises_forever_advances (raises_hunkResident data) (advances_hunkResident data) _)
    fun _ _ => raises_need_bind fun hheader => raises_unpackFrom_bind hheader ?_
  refine .ite (fun _ => raises_throw _) fun _ => raises_need_bind fun _ => ?_
  refine .bind (raises_forever_of_measure (μ := fun s => data.length - s.cursor)
    (raises_hunkPass data _) hunkPass_again (by omega)) fun result _ => ?_
  obtain ⟨state, unsupported⟩ := result
  cases unsupported with
  | some hunkType => exact .ok _
  | none => exact .ite (fun _ => raises_throw _) fun _ => .ok _

/-! ## ELF -/

section Elf

variable (fmt : ElfFormat) (data : Bytes)

/-- A row of the section-header table. -/
def elfRow (index : ℕ) : RawSection :=
  elfSectionFields fmt data ((elfTables fmt data).shoff + index * (elfTables fmt data).shentsize)

/-- The section-header table. -/
def elfRows : List RawSection := (List.range (elfTables fmt data).shnum).map (elfRow fmt data)

/-- A section that has bytes lies in the file. -/
def RawSection.InFile (raw : RawSection) : Prop :=
  raw.stype ≠ 8 → raw.size ≠ 0 → raw.offset + raw.size ≤ data.length

/-- The header, the tables, the segments and the sections are in order. -/
structure ElfReadable : Prop where
  header : fmt.headerSize ≤ data.length
  programCount : (elfTables fmt data).phnum ≤ maxHeaders
  sectionCount : (elfTables fmt data).shnum ≤ maxSections
  programSize : (elfTables fmt data).phnum ≠ 0 → fmt.expected.1 ≤ (elfTables fmt data).phentsize
  sectionSize : (elfTables fmt data).shnum ≠ 0 → fmt.expected.2 ≤ (elfTables fmt data).shentsize
  programTable : (elfTables fmt data).phoff +
    (elfTables fmt data).phentsize * (elfTables fmt data).phnum ≤ data.length
  sectionTable : (elfTables fmt data).shoff +
    (elfTables fmt data).shentsize * (elfTables fmt data).shnum ≤ data.length
  segments : ∀ index < (elfTables fmt data).phnum,
    let program := elfProgramFields fmt data index
      ((elfTables fmt data).phoff + index * (elfTables fmt data).phentsize)
    program.fileSize ≠ 0 → program.offset + program.fileSize ≤ data.length
  sections : ∀ raw ∈ elfRows fmt data, raw.InFile data

/-- The entry lies in the file. -/
def EntryFits (raw : RawSection) (index : ℕ) : Prop :=
  raw.offset + index * raw.entsize + fmt.dynamicSize ≤ data.length

/-- The string of the entry, if it has one, lies in the table. -/
def EntryNamed (raw table : RawSection) (index : ℕ) : Prop :=
  let fields := elfEntryFields fmt data (raw.offset + index * raw.entsize)
  fields.1 ∈ [1, 14, 15, 29] → fields.2 < (table.content data).length

def EntrySound (raw table : RawSection) (index : ℕ) : Prop :=
  EntryFits fmt data raw index ∧ EntryNamed fmt data raw table index

/-- The section, if it is read at all, is read to its last entry. -/
def DynamicSound (rows : List RawSection) (raw : RawSection) : Prop :=
  ∀ table, dynamicStrings rows raw = some table → raw.size / raw.entsize ≤ maxSymbols ∧
    ∀ index ∈ List.range (raw.size / raw.entsize), EntrySound fmt data raw table index

/-- An entry of the section that follows sound ones is cut off by the end of the file. -/
def DynamicCut (rows : List RawSection) (raw : RawSection) : Prop :=
  ∃ table, dynamicStrings rows raw = some table ∧ raw.size / raw.entsize ≤ maxSymbols ∧
    Meets (EntrySound fmt data raw table) (fun index => ¬EntryFits fmt data raw index)
      (List.range (raw.size / raw.entsize))

/-- A dynamic section with such an entry follows sound ones. -/
structure ElfCut : Prop where
  readable : ElfReadable fmt data
  cut : Meets (DynamicSound fmt data (elfRows fmt data)) (DynamicCut fmt data (elfRows fmt data))
    (elfRows fmt data)

variable {fmt data}

section Entries

variable {raw table : RawSection}

lemma elfEntry_ok_iff (state : ElfDynamic) (index : ℕ) :
    (∃ state', elfEntry fmt data raw (table.content data) state index = .ok state') ↔
      EntrySound fmt data raw table index := by
  unfold elfEntry
  by_cases hfits : EntryFits fmt data raw index
  · rw [unpackFrom_bind hfits]
    dsimp only
    simp only [EntrySound, hfits, true_and, EntryNamed]
    split
    · next htag => exact iff_of_true ⟨state, rfl⟩ fun h => absurd h htag
    · next htag =>
        split
        · next hvalue =>
            refine iff_of_false ?_ fun h => ?_
            · rintro ⟨state', h⟩
              cases h
            · have hlt := h (not_not.1 htag)
              omega
        · next hvalue =>
            refine iff_of_true ?_ fun _ => by omega
            split
            · exact ⟨_, rfl⟩
            split
            · exact ⟨_, rfl⟩
            split <;> exact ⟨_, rfl⟩
  · have hcut := Nat.lt_of_not_le hfits
    rw [unpackFrom_bind_of_cut hcut]
    refine iff_of_false ?_ fun h => hfits h.1
    rintro ⟨state', h⟩
    cases h

lemma elfEntry_escapes_iff (dynstr : Bytes) (state : ElfDynamic) (index : ℕ) :
    ¬Raises IsExecutable (elfEntry fmt data raw dynstr state index) ↔
      ¬EntryFits fmt data raw index := by
  refine not_congr ?_
  unfold elfEntry
  constructor
  · intro h
    by_contra hfits
    rw [unpackFrom_bind_of_cut (Nat.lt_of_not_le hfits)] at h
    exact not_isExecutable_struct _ _ _ (h _ rfl)
  · intro hfits
    refine raises_unpackFrom_bind hfits (.ite (fun _ => .ok _) fun _ => ?_)
    refine .ite (fun _ => raises_throw _) fun _ => .ite (fun _ => .ok _) fun _ => ?_
    exact .ite (fun _ => .ok _) fun _ => .ite (fun _ => .ok _) fun _ => .ok _

variable {rows : List RawSection}

lemma elfEntries_ok_iff (state : ElfDynamic) :
    (∃ state', elfEntries fmt data rows raw state = .ok state') ↔
      DynamicSound fmt data rows raw := by
  unfold elfEntries DynamicSound
  cases dynamicStrings rows raw with
  | none => exact iff_of_true ⟨state, rfl⟩ (by simp)
  | some table =>
      simp only [Option.some.injEq, forall_eq']
      split
      · next hcount =>
          refine iff_of_false ?_ fun h => by omega
          rintro ⟨state', h⟩
          cases h
      · next hcount =>
          rw [foldlM_ok_iff fun s index _ => elfEntry_ok_iff s index]
          exact (and_iff_right (Nat.le_of_not_lt hcount)).symm

lemma elfEntries_escapes_iff (state : ElfDynamic) :
    ¬Raises IsExecutable (elfEntries fmt data rows raw state) ↔ DynamicCut fmt data rows raw := by
  unfold elfEntries DynamicCut
  cases dynamicStrings rows raw with
  | none => exact iff_of_false (fun h => h (.ok state)) (by simp)
  | some table =>
      simp only [Option.some.injEq, exists_eq_left']
      split
      · next hcount =>
          exact iff_of_false (fun h => h (raises_throw _)) fun h => by omega
      · next hcount =>
          rw [not_raises_foldlM_iff (fun s index _ => elfEntry_ok_iff s index)
            fun s index _ => elfEntry_escapes_iff _ s index]
          exact (and_iff_right (Nat.le_of_not_lt hcount)).symm

/-- The symbols that the section counts for. -/
def RawSection.symbols (raw : RawSection) : ℕ :=
  if raw.stype ∈ [2, 11] ∧ raw.entsize ≠ 0 then raw.size / raw.entsize else 0

/-- The part of a pass before the dynamic entries does not fail. -/
lemma elfLook_eq (strings : Bytes) (hfile : raw.InFile data) (state : ElfDynamic) :
    ∃ buildId, elfLook fmt data strings rows state raw = elfEntries fmt data rows raw
      { state with symbolCount := state.symbolCount + raw.symbols, buildId := buildId } := by
  have hsymbols : (if raw.stype ∈ [2, 11] ∧ raw.entsize ≠ 0 then
        { state with symbolCount := state.symbolCount + raw.size / raw.entsize } else state) =
      { state with symbolCount := state.symbolCount + raw.symbols } := by
    unfold RawSection.symbols
    split <;> rfl
  unfold elfLook
  dsimp only
  rw [hsymbols]
  split
  · next hnote =>
      have hlength : (raw.content data).length = raw.size :=
        length_slice_of_le (hfile (by omega) (by omega))
      unfold elfNote
      rw [unpackFrom_bind (by omega)]
      dsimp only
      split
      · exact ⟨_, rfl⟩
      · exact ⟨_, rfl⟩
  · exact ⟨_, rfl⟩

lemma elfLook_ok_iff (strings : Bytes) (hfile : raw.InFile data) (state : ElfDynamic) :
    (∃ state', elfLook fmt data strings rows state raw = .ok state') ↔
      DynamicSound fmt data rows raw := by
  obtain ⟨_, h⟩ := elfLook_eq strings hfile state
  rw [h, elfEntries_ok_iff]

lemma elfLook_escapes_iff (strings : Bytes) (hfile : raw.InFile data) (state : ElfDynamic) :
    ¬Raises IsExecutable (elfLook fmt data strings rows state raw) ↔
      DynamicCut fmt data rows raw := by
  obtain ⟨_, h⟩ := elfLook_eq strings hfile state
  rw [h, elfEntries_escapes_iff]

end Entries

/-! ### The whole file -/

lemma row_fits {start size width count index : ℕ} (htable : start + size * count ≤ data.length)
    (hwidth : count ≠ 0 → width ≤ size) (hindex : index < count) :
    start + index * size + width ≤ data.length := by
  have hwidth := hwidth (by omega)
  have hrows : (index + 1) * size ≤ count * size := Nat.mul_le_mul_right size hindex
  rw [Nat.succ_mul, Nat.mul_comm count] at hrows
  omega

lemma elfProgram_eq_ok {tables : ElfTables} {index : ℕ} {program : ElfProgram}
    (hfits : tables.phoff + index * tables.phentsize + fmt.expected.1 ≤ data.length) :
    elfProgram fmt data tables index = .ok program ↔
      program = elfProgramFields fmt data index (tables.phoff + index * tables.phentsize) ∧
        (program.fileSize ≠ 0 → program.offset + program.fileSize ≤ data.length) := by
  unfold elfProgram
  rw [unpackFrom_bind hfits]
  split
  · next hsize =>
      rw [bind_eq_ok]
      constructor
      · rintro ⟨_, hneed, hprogram⟩
        cases hprogram
        exact ⟨rfl, fun _ => need_eq_ok.1 hneed⟩
      · rintro ⟨rfl, hin⟩
        exact ⟨(), need_eq_ok.2 (hin hsize), rfl⟩
  · next hsize =>
      constructor
      · intro hprogram
        cases hprogram
        exact ⟨rfl, fun h => absurd h hsize⟩
      · rintro ⟨rfl, -⟩
        rfl

lemma elfSection_eq_ok {tables : ElfTables} {index : ℕ} {raw : RawSection}
    (hfits : tables.shoff + index * tables.shentsize + fmt.expected.2 ≤ data.length) :
    elfSection fmt data tables index = .ok raw ↔
      raw = elfSectionFields fmt data (tables.shoff + index * tables.shentsize) ∧
        raw.InFile data := by
  unfold elfSection
  rw [unpackFrom_bind hfits]
  split
  · next hsize =>
      rw [bind_eq_ok]
      constructor
      · rintro ⟨_, hneed, hraw⟩
        cases hraw
        exact ⟨rfl, fun _ _ => need_eq_ok.1 hneed⟩
      · rintro ⟨rfl, hin⟩
        exact ⟨(), need_eq_ok.2 (hin hsize.1 hsize.2), rfl⟩
  · next hsize =>
      constructor
      · intro hraw
        cases hraw
        exact ⟨rfl, fun htype hsome => absurd ⟨htype, hsome⟩ hsize⟩
      · rintro ⟨rfl, -⟩
        rfl

lemma raises_elfProgram {tables : ElfTables} {index : ℕ}
    (hfits : tables.phoff + index * tables.phentsize + fmt.expected.1 ≤ data.length) :
    Raises IsExecutable (elfProgram fmt data tables index) := by
  unfold elfProgram
  exact raises_unpackFrom_bind hfits (.ite (fun _ => raises_need_bind fun _ => .ok _)
    fun _ => .ok _)

lemma raises_elfSection {tables : ElfTables} {index : ℕ}
    (hfits : tables.shoff + index * tables.shentsize + fmt.expected.2 ≤ data.length) :
    Raises IsExecutable (elfSection fmt data tables index) := by
  unfold elfSection
  exact raises_unpackFrom_bind hfits (.ite (fun _ => raises_need_bind fun _ => .ok _)
    fun _ => .ok _)

lemma headerSize_ge (fmt : ElfFormat) : 52 ≤ fmt.headerSize := by
  unfold ElfFormat.headerSize
  split <;> omega

/-- Tables that have been read are in order. -/
lemma readable_of_read {programs : List ElfProgram} {rows : List RawSection}
    (hheader : 0 + fmt.headerSize ≤ data.length)
    (hcounts : ¬((elfTables fmt data).phnum > maxHeaders ∨
      (elfTables fmt data).shnum > maxSections))
    (hsizes : ¬((elfTables fmt data).phnum ≠ 0 ∧ (elfTables fmt data).phentsize < fmt.expected.1 ∨
      (elfTables fmt data).shnum ≠ 0 ∧ (elfTables fmt data).shentsize < fmt.expected.2))
    (hprograms : (elfTables fmt data).phoff +
      (elfTables fmt data).phentsize * (elfTables fmt data).phnum ≤ data.length)
    (hsections : (elfTables fmt data).shoff +
      (elfTables fmt data).shentsize * (elfTables fmt data).shnum ≤ data.length)
    (hread : (List.range (elfTables fmt data).phnum).mapM
      (elfProgram fmt data (elfTables fmt data)) = .ok programs)
    (hrows : (List.range (elfTables fmt data).shnum).mapM
      (elfSection fmt data (elfTables fmt data)) = .ok rows) :
    rows = elfRows fmt data ∧ ElfReadable fmt data := by
  obtain ⟨hprogram, hsection⟩ := not_or.1 hsizes
  have hprogramRow : ∀ index ∈ List.range (elfTables fmt data).phnum, (elfTables fmt data).phoff +
      index * (elfTables fmt data).phentsize + fmt.expected.1 ≤ data.length := fun index hindex =>
    row_fits hprograms (by omega) (List.mem_range.1 hindex)
  have hsectionRow : ∀ index ∈ List.range (elfTables fmt data).shnum, (elfTables fmt data).shoff +
      index * (elfTables fmt data).shentsize + fmt.expected.2 ≤ data.length := fun index hindex =>
    row_fits hsections (by omega) (List.mem_range.1 hindex)
  obtain ⟨-, hprogramsOk⟩ := (mapM_eq_ok_iff_map fun index hindex program hok =>
    ((elfProgram_eq_ok (hprogramRow index hindex)).1 hok).1).1 hread
  obtain ⟨rfl, hrowsOk⟩ := (mapM_eq_ok_iff_map fun index hindex raw hok =>
    ((elfSection_eq_ok (hsectionRow index hindex)).1 hok).1).1 hrows
  refine ⟨rfl, by omega, by omega, by omega, by omega, by omega, hprograms, hsections,
    fun index hindex => ?_, fun raw hraw => ?_⟩
  · have hindex := List.mem_range.2 hindex
    exact ((elfProgram_eq_ok (hprogramRow index hindex)).1 (hprogramsOk index hindex)).2
  · obtain ⟨index, hindex, rfl⟩ := List.mem_map.1 hraw
    exact ((elfSection_eq_ok (hsectionRow index hindex)).1 (hrowsOk index hindex)).2

lemma raises_parseElfTables (h : ¬ElfCut fmt data) :
    Raises IsExecutable (parseElfTables fmt data) := by
  have hsize := headerSize_ge fmt
  unfold parseElfTables
  refine raises_need_bind fun hheader => raises_unpackFrom_bind (by omega) ?_
  refine .ite (fun _ => raises_throw _) fun hcounts => .ite (fun _ => raises_throw _)
    fun hsizes => ?_
  obtain ⟨hprogram, hsection⟩ := not_or.1 hsizes
  refine raises_need_bind fun hprograms => raises_need_bind fun hsections => ?_
  refine .bind (.mapM fun index hindex => raises_elfProgram
    (row_fits hprograms (by omega) (List.mem_range.1 hindex))) fun programs hread => ?_
  refine .bind (.mapM fun index hindex => raises_elfSection
    (row_fits hsections (by omega) (List.mem_range.1 hindex))) fun rows hrows => ?_
  obtain ⟨rfl, hreadable⟩ :=
    readable_of_read hheader hcounts hsizes hprograms hsections hread hrows
  refine .bind ?_ fun dynamic _ => .ite (fun _ => raises_throw _) fun _ => ?_
  · by_contra hescapes
    refine h ⟨hreadable, ?_⟩
    exact (not_raises_foldlM_iff
      (fun s raw hraw => elfLook_ok_iff _ (hreadable.sections raw hraw) s)
      (fun s raw hraw => elfLook_escapes_iff _ (hreadable.sections raw hraw) s) _).1 hescapes
  · exact raises_byteAt_bind (by omega) (.ok _)

/-- What the loop over the sections starts from. -/
def noDynamic : ElfDynamic :=
  { needed := [], soname := none, rpath := none, runpath := none,
    symbolCount := 0, buildId := none }

variable (fmt data) in
/-- The program headers. -/
def elfPrograms : List ElfProgram :=
  (List.range (elfTables fmt data).phnum).map fun index =>
    elfProgramFields fmt data index
      ((elfTables fmt data).phoff + index * (elfTables fmt data).phentsize)

variable (fmt data) in
/-- The loop over the sections. -/
def elfPasses : Except Exc ElfDynamic :=
  let rows := elfRows fmt data
  rows.foldlM (elfLook fmt data (elfStrings data (elfTables fmt data) rows) rows) noDynamic

variable (fmt data) in
/-- What is reported of a file whose dynamic sections add up to this. -/
def elfReport (dynamic : ElfDynamic) : ParsedExecutable :=
  let tables := elfTables fmt data
  let sections := elfSections (elfStrings data tables (elfRows fmt data)) (elfRows fmt data)
  { format := if fmt.is64 then "ELF64" else "ELF32"
    architecture := named elfMachines tables.machine s!"ELF_MACHINE_{tables.machine}"
    observations := .elf
      { elfClass := u8 data 4
        endianness := if fmt.endian = .little then "little" else "big"
        osAbi := u8 data 7
        objectType := tables.objectType
        machine := tables.machine
        version := tables.version
        entryPoint := tables.entry
        flags := tables.flags
        headerSize := tables.ehsize }
      (elfPrograms fmt data) sections (elfInterpreter data (elfPrograms fmt data)) dynamic
    assessments :=
      if tables.objectType ∈ [2, 3] ∧
          PyStr.ofString ".symtab" ∉ sections.map (fun row => row.name) then
        [{ assessmentType := "LIKELY_STRIPPED"
           analyzerId := "executable"
           statement := "ELF executable/shared object has no static symbol table"
           confidence := .medium
           evidenceRefs := ["elf.sections"] }]
      else []
    errors := [] }

/-- Behind headers and tables that are in order comes the loop over the sections. -/
lemma parseElfTables_of_readable (h : ElfReadable fmt data) :
    parseElfTables fmt data = (do
      let dynamic ← elfPasses fmt data
      if dynamic.symbolCount > maxSymbols then throw (.executable "ELF symbol count exceeds limit")
      return elfReport fmt data dynamic) := by
  have hsize := headerSize_ge fmt
  have hheader := h.header
  have hprogramCount := h.programCount
  have hsectionCount := h.sectionCount
  have hprogramSize := h.programSize
  have hsectionSize := h.sectionSize
  have hprogramRow : ∀ index ∈ List.range (elfTables fmt data).phnum, (elfTables fmt data).phoff +
      index * (elfTables fmt data).phentsize + fmt.expected.1 ≤ data.length := fun index hindex =>
    row_fits h.programTable hprogramSize (List.mem_range.1 hindex)
  have hsectionRow : ∀ index ∈ List.range (elfTables fmt data).shnum, (elfTables fmt data).shoff +
      index * (elfTables fmt data).shentsize + fmt.expected.2 ≤ data.length := fun index hindex =>
    row_fits h.sectionTable hsectionSize (List.mem_range.1 hindex)
  have hprograms : (List.range (elfTables fmt data).phnum).mapM
      (elfProgram fmt data (elfTables fmt data)) = .ok (elfPrograms fmt data) :=
    (mapM_eq_ok_iff_map fun index hindex program hok =>
      ((elfProgram_eq_ok (hprogramRow index hindex)).1 hok).1).2 ⟨rfl, fun index hindex =>
        (elfProgram_eq_ok (hprogramRow index hindex)).2
          ⟨rfl, h.segments index (List.mem_range.1 hindex)⟩⟩
  have hrows : (List.range (elfTables fmt data).shnum).mapM
      (elfSection fmt data (elfTables fmt data)) = .ok (elfRows fmt data) :=
    (mapM_eq_ok_iff_map fun index hindex raw hok =>
      ((elfSection_eq_ok (hsectionRow index hindex)).1 hok).1).2 ⟨rfl, fun index hindex =>
        (elfSection_eq_ok (hsectionRow index hindex)).2
          ⟨rfl, h.sections _ (List.mem_map_of_mem hindex)⟩⟩
  unfold parseElfTables
  rw [need_bind (by omega), unpackFrom_bind (by omega)]
  dsimp only
  rw [if_neg (by omega), if_neg (by omega), need_bind h.programTable, need_bind h.sectionTable,
    hprograms, ok_bind, hrows, ok_bind, byteAt_of_lt (by omega)]
  rfl

lemma readable_of_parseElfTables {parsed : ParsedExecutable}
    (h : parseElfTables fmt data = .ok parsed) : ElfReadable fmt data := by
  have hyields : Yields (fun _ => ElfReadable fmt data) (parseElfTables fmt data) := by
    unfold parseElfTables
    refine yields_need_bind fun hheader => .bind fun tables htables => ?_
    obtain ⟨-, rfl⟩ := unpackFrom_eq_ok.1 htables
    refine .ite (fun _ => .error _) fun hcounts => .ite (fun _ => .error _) fun hsizes => ?_
    refine yields_need_bind fun hprograms => yields_need_bind fun hsections => ?_
    refine .bind fun programs hread => .bind fun rows hrows _ _ => ?_
    exact (readable_of_read hheader hcounts hsizes hprograms hsections hread hrows).2
  exact hyields parsed h

lemma parseElfTables_of_cut (h : ElfCut fmt data) :
    ¬Raises IsExecutable (parseElfTables fmt data) := by
  obtain ⟨hreadable, hcut⟩ := h
  rw [parseElfTables_of_readable hreadable]
  refine not_raises_bind ?_
  exact (not_raises_foldlM_iff
    (fun s raw hraw => elfLook_ok_iff _ (hreadable.sections raw hraw) s)
    (fun s raw hraw => elfLook_escapes_iff _ (hreadable.sections raw hraw) s) _).2 hcut

end Elf

/-- What the identification says. -/
def elfFormat (data : Bytes) : ElfFormat :=
  ⟨u8 data 4 == 2, if u8 data 5 = 1 then .little else .big⟩

/-- The identification is in order. -/
structure EntersElf (data : Bytes) : Prop where
  magic : slice data 0 4 = elfMagic
  header : 16 ≤ data.length
  elfClass : u8 data 4 ∈ [1, 2]
  encoding : u8 data 5 ∈ [1, 2]

lemma raises_parseElf (hmagic : slice data 0 4 = elfMagic)
    (h : EntersElf data → ¬ElfCut (elfFormat data) data) : Raises IsExecutable (parseElf data) := by
  unfold parseElf
  refine raises_need_bind fun hheader => ?_
  refine raises_byteAt_bind (by omega) (raises_byteAt_bind (by omega) ?_)
  refine .ite (fun _ => raises_throw _) fun hknown => ?_
  obtain ⟨hclass, hencoding⟩ := not_or.1 hknown
  exact raises_parseElfTables (h ⟨hmagic, by omega, not_not.1 hclass, not_not.1 hencoding⟩)

lemma parseElf_of_enters (h : EntersElf data) :
    parseElf data = parseElfTables (elfFormat data) data := by
  have hheader := h.header
  have hknown : ¬(u8 data 4 ∉ [1, 2] ∨ u8 data 5 ∉ [1, 2]) :=
    not_or.2 ⟨not_not.2 h.elfClass, not_not.2 h.encoding⟩
  unfold parseElf
  rw [need_bind (by omega), byteAt_of_lt (by omega), byteAt_of_lt (by omega)]
  dsimp only [bind, Except.bind]
  rw [if_neg hknown]
  rfl

lemma enters_of_parseElf {parsed : ParsedExecutable} (hmagic : slice data 0 4 = elfMagic)
    (h : parseElf data = .ok parsed) : EntersElf data := by
  have hyields : Yields (fun _ => EntersElf data) (parseElf data) := by
    unfold parseElf
    refine yields_need_bind fun hheader => ?_
    rw [byteAt_of_lt (by omega), ok_bind, byteAt_of_lt (by omega), ok_bind]
    refine .ite (fun _ => .error _) fun hknown _ _ => ?_
    obtain ⟨hclass, hencoding⟩ := not_or.1 hknown
    exact ⟨hmagic, by omega, not_not.1 hclass, not_not.1 hencoding⟩
  exact hyields parsed h

/-! ## The reader -/

/-- A file that the reader reads past the end of. -/
inductive Overruns (data : Bytes) : Prop
  | pe (magic : slice data 0 2 = ascii "MZ") (enters : EntersPe data)
      (cut : PeCut data (le32 data 60))
  | elf (enters : EntersElf data) (cut : ElfCut (elfFormat data) data)

/-- A file that starts as an MZ file is taken for one. -/
lemma parseExecutable_mz (hmagic : slice data 0 2 = ascii "MZ") (hlength : 4 ≤ data.length) :
    parseExecutable data = some <$> parseMz data := by
  obtain ⟨a, b, c, d, rest, rfl⟩ : ∃ a b c d rest, data = a :: b :: c :: d :: rest := by
    rcases data with _ | ⟨a, _ | ⟨b, _ | ⟨c, _ | ⟨d, rest⟩⟩⟩⟩
    case cons.cons.cons.cons => exact ⟨a, b, c, d, rest, rfl⟩
    all_goals simp at hlength
  have hab : [a, b] = [0x4D, 0x5A] := hmagic
  obtain ⟨rfl, hb⟩ := List.cons.inj hab
  obtain ⟨rfl, -⟩ := List.cons.inj hb
  have hword : be32 (0x4D :: 0x5A :: c :: d :: rest) 0 =
      ((0x4D * 256 + 0x5A) * 256 + c.toNat) * 256 + d.toNat := by
    simp [be32, beNat, slice]
  have hc := c.toNat_lt
  have hd := d.toNat_lt
  unfold parseExecutable
  rw [if_neg, if_neg, if_neg, if_pos hmagic]
  · rintro ⟨-, hmem⟩
    simp only [machoMagics, List.mem_cons, List.not_mem_nil, or_false] at hmem
    omega
  · omega
  · intro h
    cases h

lemma raises_map {α : Type} {x : Except Exc α} :
    Raises IsExecutable (some <$> x) ↔ Raises IsExecutable x := by
  cases x with
  | ok a => exact iff_of_true (.ok _) (.ok a)
  | error e =>
      constructor
      · intro h e' he
        cases he
        exact h e rfl
      · intro h e' he
        cases he
        exact h e rfl

/-- The reader raises `ExecutableError` and nothing else, unless it reads past the end of the file:
at the magic number of a PE optional header, or at a dynamic entry of an ELF section whose entry
size is smaller than an entry. -/
theorem parseExecutable_raises_iff (data : Bytes) :
    (∀ exc, parseExecutable data = .error exc → IsExecutable exc) ↔ ¬Overruns data := by
  constructor
  · intro h hoverruns
    have h : Raises IsExecutable (parseExecutable data) := h
    cases hoverruns with
    | pe magic enters cut =>
        rw [parseExecutable_mz magic (by have := enters.header; omega), raises_map,
          parseMz_of_enters enters, parsePe_of_cut cut] at h
        exact not_isExecutable_struct _ _ _ (h _ rfl)
    | elf enters cut =>
        rw [parseExecutable, if_pos enters.magic, raises_map, parseElf_of_enters enters] at h
        exact parseElfTables_of_cut cut h
  · intro h
    suffices hraises : Raises IsExecutable (parseExecutable data) from hraises
    unfold parseExecutable
    refine .ite (fun hmagic => ?_) fun _ => .ite (fun _ => ?_) fun _ => .ite (fun _ => ?_)
      fun _ => ?_
    · exact raises_map.2 (raises_parseElf hmagic fun enters cut => h (.elf enters cut))
    · exact raises_map.2 (raises_parseHunk data)
    · exact raises_map.2 (raises_parseMacho data)
    · refine .ite (fun hmagic => raises_map.2 ?_) fun _ => .ok _
      exact raises_parseMz fun enters cut => h (.pe hmagic enters cut)

/-- A PE file that ends after its COFF header, with an empty optional header. -/
def headerOnly : Bytes :=
  ascii "MZ" ++ List.replicate 58 0 ++ [64, 0, 0, 0] ++ ascii "PE" ++ List.replicate 22 0

/-- `struct.error` escapes from the reader. -/
theorem headerOnly_escapes :
    ¬∀ exc, parseExecutable headerOnly = .error exc → IsExecutable exc := by
  intro h
  have hraised : parseExecutable headerOnly = .error (.struct 88 2 88) := by decide +kernel
  exact not_isExecutable_struct _ _ _ (h _ hraised)

end Executable

end AVBox
