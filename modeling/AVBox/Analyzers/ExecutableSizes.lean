import AVBox.Analyzers.HunkFiles
import AVBox.Analyzers.PeTables
import AVBox.Lib.Extents

/-!
# How much the executable reader records

Every item that is recorded comes from a row of a table that lies in the file (`tablesRead`).  A
table is walked once for each descriptor or section that refers to it, so the items are not bounded
by the size of the file unless the tables lie apart (`recorded_le_tables`).
-/

namespace AVBox

open Binary Fallible Loop

namespace Executable

/-! ## What is recorded -/

/-- The relocation offsets and the symbols of a record. -/
def HunkBody.recorded : HunkBody → ℕ
  | .relocations groups => (groups.map fun group => group.offsets.length).sum
  | .symbols found => found.length
  | _ => 0

/-- The number of import libraries, imported symbols, exported names, needed libraries, relocation
offsets and HUNK symbols. -/
def ParsedExecutable.recorded (parsed : ParsedExecutable) : ℕ :=
  match parsed.observations with
  | .pe _ _ _ _ imports exports _ =>
      imports.length + (imports.map fun library => library.symbols.length).sum + exports.length
  | .elf _ _ _ _ dynamic => dynamic.needed.length
  | .hunk _ records => (records.map fun record => record.body.recorded).sum
  | _ => 0

/-! ## The tables they come from -/

/-- The place of a relative address, if it has one. -/
def placeOf (data : Bytes) (sections : List PeSection) (rva : ℕ) : ℕ :=
  (rvaOffset data sections rva).toOption.getD 0

/-- The thunks of a library, with the zero word behind them. -/
def thunkTable (data : Bytes) (sections : List PeSection) (is64 : Bool) (cursor index : ℕ)
    (library : PeImport) : Extent :=
  let row := cursor + index * 20
  let rva := if le32 data row = 0 then le32 data (row + 16) else le32 data row
  { start := placeOf data sections rva
    size := (library.symbols.length + 1) * thunkWidth is64 }

/-- The descriptors, with the null descriptor behind them, and the thunks of each. -/
def importTables (data : Bytes) (sections : List PeSection) (is64 : Bool)
    (directories : List PeDirectory) (imports : List PeImport) : List Extent :=
  let rva := (directories[1]?.map (·.rva)).getD 0
  if rva = 0 then []
  else
    let cursor := placeOf data sections rva
    { start := cursor, size := (imports.length + 1) * 20 } ::
      imports.mapIdx (thunkTable data sections is64 cursor)

/-- The pointers to the exported names. -/
def exportTables (data : Bytes) (sections : List PeSection) (directories : List PeDirectory)
    (exports : List PeExport) : List Extent :=
  if exports = [] then []
  else
    let exp := placeOf data sections ((directories[0]?.map (·.rva)).getD 0)
    [{ start := placeOf data sections (le32 data (exp + 32)), size := exports.length * 4 }]

/-- The section is read as a dynamic section and is not empty. -/
def readDynamic (rows : List RawSection) (raw : RawSection) : Bool :=
  (dynamicStrings rows raw).isSome && raw.size != 0

/-- The dynamic sections that are read. -/
def dynamicTables (fmt : ElfFormat) (data : Bytes) : List Extent :=
  let rows := elfRows fmt data
  (rows.filter (readDynamic rows)).map fun raw => { start := raw.offset, size := raw.size }

/-- The tables that the reader walks.  The records of a HUNK file follow each other, and the file as
a whole counts as one table. -/
def tablesRead (data : Bytes) (parsed : ParsedExecutable) : List Extent :=
  match parsed.observations with
  | .pe _ _ sections directories imports exports _ =>
      importTables data sections (peIs64 data (le32 data 60)) directories imports ++
        exportTables data sections directories exports
  | .elf _ _ _ _ _ => dynamicTables (elfFormat data) data
  | .hunk _ _ => [{ start := 0, size := data.length }]
  | _ => []

/-- The tables lie in the file, and what is recorded does not exceed them. -/
structure Accounted (data : Bytes) (tables : List Extent) (recorded : ℕ) : Prop where
  within : ∀ table ∈ tables, table.Within data.length
  covers : recorded ≤ (tables.map Extent.size).sum

lemma Accounted.append {data : Bytes} {tables tables' : List Extent} {recorded recorded' : ℕ}
    (h : Accounted data tables recorded) (h' : Accounted data tables' recorded') :
    Accounted data (tables ++ tables') (recorded + recorded') := by
  refine ⟨fun table htable => ?_, ?_⟩
  · rcases List.mem_append.1 htable with hmem | hmem
    · exact h.within table hmem
    · exact h'.within table hmem
  · rw [List.map_append, List.sum_append]
    exact Nat.add_le_add h.covers h'.covers

lemma accounted_nil (data : Bytes) : Accounted data [] 0 := ⟨by simp, Nat.le_refl _⟩

/-! ## PE -/

section Pe

variable {data : Bytes} {sections : List PeSection} {is64 : Bool}

lemma placeOf_eq {rva place : ℕ} (h : rvaOffset data sections rva = .ok place) :
    placeOf data sections rva = place := by
  rw [placeOf, h]
  rfl

lemma appends_peThunk (state : ℕ × List PeSymbol) :
    Yields (Appends (thunkWidth is64) data.length (fun _ _ => True) state)
      (peThunk data sections is64 state) := by
  unfold peThunk
  refine yields_need_bind fun hfits => .ite (fun _ => .ok ⟨rfl, hfits⟩) fun _ =>
    .ite (fun _ => ?_) ?_
  · exact .ok ⟨_, rfl, trivial⟩
  · exact fun _ => .bind fun _ _ => yields_need_bind fun _ => .bind fun _ _ => .ok ⟨_, rfl, trivial⟩

/-- The thunks of the descriptor at this place lie in the file. -/
def ThunksWithin (data : Bytes) (sections : List PeSection) (is64 : Bool) (row : ℕ)
    (library : PeImport) : Prop :=
  (thunkTable data sections is64 row 0 library).Within data.length

lemma appends_peDescriptor (state : ℕ × List PeImport) :
    Yields (Appends 20 data.length (ThunksWithin data sections is64) state)
      (peDescriptor data sections is64 state) := by
  unfold peDescriptor
  refine yields_need_bind fun hfits => .bind fun fields hfields => ?_
  obtain ⟨-, rfl⟩ := unpackFrom_eq_ok.1 hfields
  refine .ite (fun _ => .ok ⟨rfl, hfits⟩) fun _ => .bind fun _ _ => .bind fun library _ => ?_
  refine .bind fun place hplace => .bind fun symbols hsymbols => .ok ⟨_, rfl, ?_⟩
  obtain ⟨hwithin, -⟩ := yields_appended appends_peThunk _ _ symbols hsymbols
  unfold ThunksWithin thunkTable Extent.Within
  dsimp only
  rw [Nat.zero_mul, Nat.add_zero, placeOf_eq hplace]
  exact hwithin

lemma sum_size_mapIdx {α : Type} (size : α → ℕ) (items : List α) (table : ℕ → α → Extent)
    (h : ∀ index item, size item ≤ (table index item).size) :
    (items.map size).sum ≤ ((items.mapIdx table).map Extent.size).sum := by
  induction items generalizing table with
  | nil => exact Nat.le_refl _
  | cons item items ih =>
      rw [List.mapIdx_cons]
      exact Nat.add_le_add (h 0 item) (ih _ fun index other => h (index + 1) other)

lemma thunkWidth_pos (is64 : Bool) : 0 < thunkWidth is64 := by
  cases is64 <;> decide

lemma accounted_imports {directories : List PeDirectory} {imports : List PeImport}
    (h : peImports data sections is64 directories = .ok imports) :
    Accounted data (importTables data sections is64 directories imports)
      (imports.length + (imports.map fun library => library.symbols.length).sum) := by
  unfold peImports at h
  unfold importTables
  dsimp only at h ⊢
  split
  · next hrva =>
      rw [if_pos hrva] at h
      obtain rfl := Except.ok.inj h
      exact accounted_nil data
  · next hrva =>
      rw [if_neg hrva] at h
      obtain ⟨cursor, hcursor, hloop⟩ := bind_eq_ok.1 h
      obtain ⟨hdescriptors, hthunks⟩ := yields_appended appends_peDescriptor _ _ imports hloop
      rw [placeOf_eq hcursor]
      refine ⟨List.forall_mem_cons.2 ⟨hdescriptors, fun table htable => ?_⟩, ?_⟩
      · obtain ⟨index, hindex, rfl⟩ := List.mem_mapIdx.1 htable
        have hrow := hthunks index _ (List.getElem?_eq_getElem hindex)
        rwa [ThunksWithin, thunkTable, Nat.zero_mul, Nat.add_zero] at hrow
      · have hsymbols := sum_size_mapIdx (fun library => library.symbols.length) imports
          (thunkTable data sections is64 cursor) fun index library =>
            (Nat.le_succ _).trans (Nat.le_mul_of_pos_right _ (thunkWidth_pos is64))
        rw [List.map_cons, List.sum_cons]
        exact Nat.add_le_add (by dsimp only; omega) hsymbols

lemma accounted_exports {directories : List PeDirectory} {exports : List PeExport}
    (h : peExports data sections directories = .ok exports) :
    Accounted data (exportTables data sections directories exports) exports.length := by
  unfold exportTables
  split
  · next hnone =>
      rw [hnone]
      exact accounted_nil data
  · next hsome =>
      unfold peExports at h
      dsimp only at h ⊢
      split at h
      · exact absurd (Except.ok.inj h).symm hsome
      obtain ⟨exp, hexp, h⟩ := bind_eq_ok.1 h
      obtain ⟨_, -, h⟩ := bind_eq_ok.1 h
      obtain ⟨fields, hfields, h⟩ := bind_eq_ok.1 h
      obtain ⟨-, rfl⟩ := unpackFrom_eq_ok.1 hfields
      dsimp only at h
      split at h
      · cases h
      obtain ⟨namesAt, hnamesAt, h⟩ := bind_eq_ok.1 h
      obtain ⟨ordinalsAt, -, hexports⟩ := bind_eq_ok.1 h
      rw [placeOf_eq hexp, placeOf_eq hnamesAt]
      have hall := mapM_eq_ok_iff.1 hexports
      have hlength := hall.length_eq
      -- the pointer of the last name is the last of the table
      have hlast : exports.length - 1 < exports.length :=
        Nat.sub_lt (List.length_pos_iff.2 hsome) Nat.one_pos
      have hread := (List.forall₂_iff_get.1 hall).2 (exports.length - 1) (hlength ▸ hlast) hlast
      obtain ⟨_, hneed, -⟩ := bind_eq_ok.1 hread
      have hfits := need_eq_ok.1 hneed
      rw [List.get_eq_getElem, List.getElem_range] at hfits
      dsimp only at hfits
      refine ⟨fun table htable => ?_, ?_⟩
      · obtain rfl := List.mem_singleton.1 htable
        unfold Extent.Within
        dsimp only
        omega
      · simp only [List.map_cons, List.map_nil, List.sum_cons, List.sum_nil]
        omega

lemma accounted_parsePe {parsed : ParsedExecutable} (h : parsePe data (le32 data 60) = .ok parsed) :
    Accounted data (tablesRead data parsed) parsed.recorded := by
  obtain ⟨-, imports, exports, himports, hexports, rfl⟩ := parsePe_eq_ok_iff.1 h
  exact (accounted_imports himports).append (accounted_exports hexports)

end Pe

/-- Only a PE header behind the MZ header has tables. -/
lemma accounted_parseMz {data : Bytes} :
    Yields (fun parsed => Accounted data (tablesRead data parsed) parsed.recorded)
      (parseMz data) := by
  unfold parseMz
  refine .bind fun _ _ => .bind fun fields hfields => .bind fun stack hstack => ?_
  refine .bind fun table htable => .bind fun newOffset hnewOffset => ?_
  obtain ⟨-, rfl⟩ := unpackFrom_eq_ok.1 hnewOffset
  refine .ite (fun _ => .error _) fun _ => .ite (fun _ => .ok (accounted_nil data)) fun _ => ?_
  refine yields_need_bind fun _ => .ite (fun _ parsed h => accounted_parsePe h) fun _ => ?_
  exact .bind fun _ _ => .ok (accounted_nil data)

/-! ## ELF -/

section Elf

variable {fmt : ElfFormat} {data : Bytes} {rows : List RawSection}

/-- An entry adds at most one library. -/
lemma needed_elfEntry (raw : RawSection) (strings : Bytes) (state : ElfDynamic) (index : ℕ) :
    Yields (fun state' => state'.needed.length ≤ state.needed.length + 1)
      (elfEntry fmt data raw strings state index) := by
  unfold elfEntry
  refine .bind fun _ _ => .ite (fun _ => .ok (Nat.le_succ _)) fun _ => .ite (fun _ => .error _) ?_
  refine fun _ => .ite (fun _ => .ok ?_) fun _ => .ite (fun _ => .ok (Nat.le_succ _)) fun _ => ?_
  · rw [List.length_append, List.length_singleton]
  · exact .ite (fun _ => .ok (Nat.le_succ _)) fun _ => .ok (Nat.le_succ _)

/-- A section adds at most as many libraries as it has bytes, if it is read. -/
lemma needed_elfEntries (raw : RawSection) (state : ElfDynamic) :
    Yields (fun state' => state'.needed.length ≤
        state.needed.length + if readDynamic rows raw then raw.size else 0)
      (elfEntries fmt data rows raw state) := by
  unfold elfEntries readDynamic
  cases dynamicStrings rows raw with
  | none => exact .ok (Nat.le_add_right _ _)
  | some table =>
      refine .ite (fun _ => .error _) fun _ state' h => ?_
      have hadded := yields_foldlM (fun s => s.needed.length) (fun _ => 1)
        (fun s index _ => needed_elfEntry raw _ s index) state state' h
      have hcount : raw.size / raw.entsize ≤ raw.size := Nat.div_le_self _ _
      rw [List.map_const', List.sum_replicate, List.length_range, Nat.nsmul_eq_mul, Nat.mul_one]
        at hadded
      by_cases hsize : raw.size = 0
      · simp only [hsize, Nat.zero_div, Nat.add_zero] at hadded ⊢
        simpa using hadded
      · simp only [Option.isSome_some, Bool.true_and, bne_iff_ne, ne_eq, hsize, not_false_eq_true,
          if_true]
        omega

lemma sum_filter {α : Type} (p : α → Bool) (size : α → ℕ) (items : List α) :
    (items.map fun item => if p item then size item else 0).sum =
      ((items.filter p).map size).sum := by
  induction items with
  | nil => rfl
  | cons item items ih =>
      rw [List.map_cons, List.sum_cons, ih, List.filter_cons]
      split
      · rw [List.map_cons, List.sum_cons]
      · exact Nat.zero_add _

/-- A section that is read as a dynamic section lies in the file. -/
lemma within_of_readDynamic {raw : RawSection} (hfile : raw.InFile data)
    (hread : readDynamic rows raw = true) : raw.offset + raw.size ≤ data.length := by
  obtain ⟨hsome, hsize⟩ := Bool.and_eq_true_iff.1 hread
  refine hfile ?_ (by simpa using hsize)
  intro htype
  unfold dynamicStrings at hsome
  rw [if_pos (Or.inl (by omega))] at hsome
  cases hsome

lemma accounted_parseElf (hmagic : slice data 0 4 = elfMagic) :
    Yields (fun parsed => Accounted data (tablesRead data parsed) parsed.recorded)
      (parseElf data) := by
  intro parsed h
  rw [parseElf_of_enters (enters_of_parseElf hmagic h)] at h
  have hreadable := readable_of_parseElfTables h
  rw [parseElfTables_of_readable hreadable] at h
  obtain ⟨dynamic, hpasses, h⟩ := bind_eq_ok.1 h
  split at h
  · cases h
  obtain rfl := Except.ok.inj h
  refine ⟨fun table htable => ?_, ?_⟩
  · obtain ⟨raw, hraw, rfl⟩ := List.mem_map.1 htable
    obtain ⟨hmem, hread⟩ := List.mem_filter.1 hraw
    exact within_of_readDynamic (hreadable.sections raw hmem) hread
  · have hadded := yields_foldlM (fun s : ElfDynamic => s.needed.length)
      (fun raw => if readDynamic (elfRows (elfFormat data) data) raw then raw.size else 0)
      (fun state raw hraw state' hstate' => by
        obtain ⟨buildId, hlook⟩ := elfLook_eq _ (hreadable.sections raw hraw) state
        rw [hlook] at hstate'
        have hneeded := needed_elfEntries raw _ state' hstate'
        exact hneeded) noDynamic dynamic hpasses
    rw [sum_filter] at hadded
    have htables : (dynamicTables (elfFormat data) data).map Extent.size =
        ((elfRows (elfFormat data) data).filter (readDynamic (elfRows (elfFormat data) data))).map
          RawSection.size := by
      rw [dynamicTables, List.map_map]
      rfl
    rw [← htables] at hadded
    exact hadded.trans_eq (Nat.zero_add _)

end Elf

/-! ## HUNK -/

section Hunk

variable {data : Bytes}

/-- A pass that moves the cursor on by at least as much as it adds. -/
def Covers {α : Type} (μ : α → ℕ) (state : ℕ × α) : Next (ℕ × α) (ℕ × α) → Prop
  | .again state' => state.1 + μ state'.2 ≤ state'.1 + μ state.2
  | .done result => state.1 + μ result.2 ≤ result.1 + μ state.2

lemma yields_covers {α : Type} {μ : α → ℕ} {body : ℕ × α → Except Exc (Next (ℕ × α) (ℕ × α))}
    (hbody : ∀ s, Yields (Covers μ s) (body s)) (fuel cursor : ℕ) (value : α) (h : μ value = 0) :
    Yields (fun result => cursor + μ result.2 ≤ result.1)
      (forever .unending body fuel (cursor, value)) := by
  intro result hresult
  refine forever_ok (I := fun s => cursor + μ s.2 ≤ s.1)
    (Q := fun result => cursor + μ result.2 ≤ result.1) ?_ ?_ (by dsimp only; omega) hresult
  · intro s s' hs hstep
    have hcovers : s.1 + μ s'.2 ≤ s'.1 + μ s.2 := hbody s _ hstep
    omega
  · intro s value hs hstep
    have hcovers : s.1 + μ value.2 ≤ value.1 + μ s.2 := hbody s _ hstep
    omega

lemma covers_hunkGroup (name : String) (state : ℕ × List Relocations) :
    Yields (Covers (fun groups => (groups.map fun group => group.offsets.length).sum) state)
      (hunkGroup data name state) := by
  unfold hunkGroup
  refine yields_need_bind fun _ => .ite (fun _ => .ok ?_) fun _ => .ite (fun _ => .error _)
    fun _ => ?_
  · dsimp only [Covers]
    omega
  · refine yields_need_bind fun _ => .bind fun offsets hoffsets => .ok ?_
    obtain ⟨-, rfl⟩ := unpackFrom_eq_ok.1 hoffsets
    dsimp only [Covers]
    rw [List.map_append, List.sum_append, List.map_singleton, List.sum_singleton, List.length_map,
      List.length_range]
    omega

lemma covers_hunkSymbol (state : ℕ × List HunkSymbol) :
    Yields (Covers List.length state) (hunkSymbol data state) := by
  unfold hunkSymbol
  refine yields_need_bind fun _ => .ite (fun _ => .ok ?_) fun _ => .ite (fun _ => .error _)
    fun _ => ?_
  · dsimp only [Covers]
    omega
  · refine yields_need_bind fun _ => .ok ?_
    dsimp only [Covers]
    rw [List.length_append, List.length_singleton]
    omega

lemma hunkBody_covers (name : String) (hunkType cursor : ℕ) :
    Yields (fun result => cursor + result.1.recorded ≤ result.2)
      (hunkBody data name hunkType cursor) := by
  unfold hunkBody
  refine .ite (fun _ => yields_need_bind fun _ => ?_) fun _ => .ite (fun _ => ?_) fun _ => ?_
  · refine .ite (fun _ => yields_need_bind fun _ => .ok ?_) fun _ => .ok ?_
    · dsimp only [HunkBody.recorded]
      omega
    · dsimp only [HunkBody.recorded]
      omega
  · exact .bind fun result hresult => .ok
      (yields_covers (covers_hunkGroup name) _ cursor [] rfl result hresult)
  · refine .ite (fun _ => .bind fun result hresult => .ok ?_) fun _ => ?_
    · exact yields_covers covers_hunkSymbol _ cursor [] rfl result hresult
    · exact .ite (fun _ => .ok (Nat.le_refl cursor)) fun _ => .ok (Nat.le_refl cursor)

/-- The items of the records do not exceed the bytes read. -/
structure HunkState.Covered (data : Bytes) (state : HunkState) : Prop where
  items : (state.records.map fun record => record.body.recorded).sum ≤ state.cursor
  cursor : state.cursor ≤ data.length

lemma covered_hunkPass {tableSize : ℕ} {state : HunkState} (h : state.Covered data) :
    Yields (fun next => (∀ state', next = .again state' → state'.Covered data) ∧
      ∀ result, next = .done result → result.1.Covered data) (hunkPass data tableSize state) := by
  unfold hunkPass
  refine .ite (fun _ => .ok ⟨by rintro _ ⟨⟩, ?_⟩) fun _ => ?_
  · rintro _ ⟨⟩
    exact h
  refine yields_need_bind fun hfits => .bind fun result hresult => ?_
  have hstop := hunkBody_covers _ _ _ result hresult
  have hwithin := hunkBody_within _ _ hfits result hresult
  have hitems := h.items
  have hsum (record : HunkRecord) (hbody : record.body = result.1) :
      ((state.records ++ [record]).map fun record => record.body.recorded).sum ≤ result.2 := by
    rw [List.map_append, List.sum_append, List.map_singleton, List.sum_singleton, hbody]
    omega
  refine .ite (fun _ => .ok ⟨by rintro _ ⟨⟩, ?_⟩) fun _ => .ite (fun _ => .ok ⟨by rintro _ ⟨⟩, ?_⟩)
    fun _ => .ite (fun _ => .error _) fun _ => .ok ⟨?_, by rintro _ ⟨⟩⟩
  all_goals
    rintro _ ⟨⟩
    exact ⟨hsum _ rfl, hwithin⟩

lemma accounted_parseHunk :
    Yields (fun parsed => Accounted data (tablesRead data parsed) parsed.recorded)
      (parseHunk data) := by
  unfold parseHunk
  refine .bind fun resident _ => yields_need_bind fun hheader => .bind fun words hwords => ?_
  obtain ⟨-, rfl⟩ := unpackFrom_eq_ok.1 hwords
  refine .ite (fun _ => .error _) fun _ => yields_need_bind fun htable =>
    .bind fun result hloop => ?_
  obtain ⟨state, unsupported⟩ := result
  have hcovered : state.Covered data :=
    forever_ok (I := fun s => s.Covered data) (Q := fun result => result.1.Covered data)
      (fun hs hstep => (covered_hunkPass hs _ hstep).1 _ rfl)
      (fun hs hstep => (covered_hunkPass hs _ hstep).2 _ rfl) ⟨Nat.zero_le _, htable⟩ hloop
  have hall (parsed : ParsedExecutable) (header : HunkHeader)
      (hparsed : parsed.observations = .hunk header state.records) :
      Accounted data (tablesRead data parsed) parsed.recorded := by
    unfold tablesRead ParsedExecutable.recorded
    rw [hparsed]
    refine ⟨fun table htable => ?_, ?_⟩
    · obtain rfl := List.mem_singleton.1 htable
      exact (Nat.zero_add _).le
    · exact hcovered.items.trans (hcovered.cursor.trans (Nat.add_zero _).ge)
  cases unsupported with
  | some hunkType => exact .ok (hall _ _ rfl)
  | none => exact .ite (fun _ => .error _) fun _ => .ok (hall _ _ rfl)

end Hunk

/-! ## The reader -/

lemma accounted_parseMacho {data : Bytes} :
    Yields (fun parsed => Accounted data (tablesRead data parsed) parsed.recorded)
      (parseMacho data) := by
  have hfat (endian : Endian) :
      Yields (fun parsed => Accounted data (tablesRead data parsed) parsed.recorded)
        (parseMachoFat data endian) := by
    unfold parseMachoFat
    refine .bind fun _ _ => .bind fun _ _ => .ite (fun _ => .error _) fun _ => .bind fun _ _ => ?_
    exact .bind fun _ _ => .ok (accounted_nil data)
  have hthin (raw : ℕ) (endian : Endian) (is64 : Bool) :
      Yields (fun parsed => Accounted data (tablesRead data parsed) parsed.recorded)
        (parseMachoThin data raw endian is64) := by
    unfold parseMachoThin
    refine .bind fun _ _ => .bind fun _ _ => .ite (fun _ => .error _) fun _ => ?_
    exact .bind fun _ _ => .ok (accounted_nil data)
  unfold parseMacho
  exact .ite (fun _ => hfat _) fun _ => .ite (fun _ => hfat _) fun _ => hthin _ _ _

lemma yields_some {Q : ParsedExecutable → Prop} {x : Except Exc ParsedExecutable}
    (h : Yields Q x) : Yields (fun result => ∀ parsed, result = some parsed → Q parsed)
      (some <$> x) := by
  intro result hresult parsed hparsed
  cases x with
  | error e => cases hresult
  | ok found =>
      cases hresult
      obtain rfl := Option.some.inj hparsed
      exact h _ rfl

/-- What is recorded does not exceed the tables that are walked, each counted for every descriptor
or section that refers to it.  It does not exceed the file if no two of them share bytes. -/
theorem recorded_le_tables {data : Bytes} {parsed : ParsedExecutable}
    (h : parseExecutable data = .ok (some parsed)) :
    (∀ table ∈ tablesRead data parsed, table.Within data.length) ∧
      parsed.recorded ≤ ((tablesRead data parsed).map Extent.size).sum ∧
      ((tablesRead data parsed).Pairwise Extent.Apart → parsed.recorded ≤ data.length) := by
  have hyields : Yields (fun result => ∀ parsed, result = some parsed →
      Accounted data (tablesRead data parsed) parsed.recorded) (parseExecutable data) := by
    unfold parseExecutable
    refine .ite (fun hmagic => yields_some (accounted_parseElf hmagic)) fun _ => ?_
    refine .ite (fun _ => yields_some accounted_parseHunk) fun _ => ?_
    refine .ite (fun _ => yields_some accounted_parseMacho) fun _ => ?_
    refine .ite (fun _ => yields_some accounted_parseMz) fun _ => .ok ?_
    rintro _ ⟨⟩
  have haccounted := hyields _ h parsed rfl
  refine ⟨haccounted.within, haccounted.covers, fun hapart => ?_⟩
  exact haccounted.covers.trans (Extent.sum_size_le haccounted.within hapart)

/-- Three items of the small file. -/
theorem smallTables_accounted :
    ∃ parsed, parseExecutable (oneSection 0x103A 0x1000 smallTables) = .ok (some parsed) ∧
      (∀ table ∈ tablesRead (oneSection 0x103A 0x1000 smallTables) parsed,
        table.Within (oneSection 0x103A 0x1000 smallTables).length) ∧
      parsed.recorded ≤ ((tablesRead (oneSection 0x103A 0x1000 smallTables) parsed).map
        Extent.size).sum ∧
      ((tablesRead (oneSection 0x103A 0x1000 smallTables) parsed).Pairwise Extent.Apart →
        parsed.recorded ≤ (oneSection 0x103A 0x1000 smallTables).length) := by
  have hparsed := smallTables_file.parse_of_reach smallTables_inReach
  exact ⟨_, hparsed, recorded_le_tables hparsed⟩

/-! ## A shared table -/

/-- A library `k` whose thunks, sixty-four ordinals, stand behind the seventeen descriptors. -/
def sharedImport : StoredImport :=
  { original := 0x1154
    timestamp := 0
    forwarder := 0
    nameRva := 0x1258
    thunk := 0
    library := ascii "k"
    symbols := List.replicate 64 (.ordinal 7) }

/-- Sixteen descriptors of the library, which share its thunks and its name. -/
def sharedTables : Bytes :=
  (List.replicate 16 sharedImport).flatMap StoredImport.descriptor ++ List.replicate 20 0 ++
    sharedImport.thunks false ++ ascii "k" ++ [0]

lemma sharedTables_file :
    TableFile (oneSection 0 0x1000 sharedTables) (sectionOf sharedTables)
      (List.replicate 16 sharedImport) none where
  magic := by decide +kernel
  enters := ⟨by decide +kernel, by decide +kernel, by decide +kernel, by decide +kernel,
    by decide +kernel⟩
  readable := ⟨⟨by decide +kernel, by decide +kernel, by decide +kernel, by decide +kernel,
    by decide +kernel⟩, by decide +kernel, by decide +kernel, by decide +kernel⟩
  sections := by decide +kernel
  sizes := rfl
  noImports := fun h => absurd h (by decide +kernel)
  descriptors := fun _ => by decide +kernel
  imports := by
    intro library hlibrary
    rw [List.eq_of_mem_replicate hlibrary]
    refine ⟨by decide, by decide, by decide, ⟨by decide, by decide⟩, by decide +kernel,
      by decide +kernel, fun symbol hsymbol => ?_⟩
    rw [List.eq_of_mem_replicate hsymbol]
    exact (by decide : 7 < 2 ^ 16)
  noExports := iff_of_true (by decide +kernel) rfl
  exports := by simp

/-- More symbols are recorded than the file has bytes. -/
theorem shared_thunks_multiply :
    ¬∀ data parsed, parseExecutable data = .ok (some parsed) → parsed.recorded ≤ data.length := by
  intro h
  have hreach : TablesInReach (sectionOf sharedTables) (List.replicate 16 sharedImport) none :=
    ⟨by decide, fun library hlibrary => by rw [List.eq_of_mem_replicate hlibrary]; decide,
      by simp, by simp⟩
  have hle := h _ _ (sharedTables_file.parse_of_reach hreach)
  have hmore : (oneSection 0 0x1000 sharedTables).length <
      (peReport (oneSection 0 0x1000 sharedTables) (le32 (oneSection 0 0x1000 sharedTables) 60)
        ((List.replicate 16 sharedImport).map StoredImport.reported)
        (((none : Option StoredExports).map StoredExports.reported).getD [])).recorded := by
    decide +kernel
  exact absurd hle (Nat.not_le.2 hmore)

end Executable

end AVBox
