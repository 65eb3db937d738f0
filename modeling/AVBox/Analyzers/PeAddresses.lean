import AVBox.Analyzers.PeFiles
import AVBox.Lib.Watched

/-!
# The addresses a PE file is read at

The import and export tables of `_parse_pe` once more, as computations that note every byte they
read by a relative address: the address that `rva_offset` was given, the place in the file it is
taken to, and the place of the byte, which a table or a string has further on.
`result_parsePeWatched` says that this is the same reader.

A section spans the larger of its virtual and its raw size, so an address in the zero-filled tail of
a section is taken to whatever stands behind its raw data, and an entry or a string that begins in
the raw data is read on into it.  `followed_rawBacked_iff` says that this is the only way in which a
place can be wrong.
-/

namespace AVBox

open Binary Fallible Loop Watched

namespace Executable

/-- A relative address and the place in the file it is taken to. -/
structure Pointer where
  rva : ℕ
  place : ℕ
  deriving DecidableEq

/-- A byte that is read on from a pointer. -/
structure Followed where
  base : Pointer
  place : ℕ
  deriving DecidableEq

/-- The relative address of the byte. -/
def Followed.rva (followed : Followed) : ℕ :=
  followed.base.rva + (followed.place - followed.base.place)

section Tables

variable (data : Bytes) (sections : List PeSection)

/-- Bytes that are read on from a pointer, from a place on. -/
def reads (base : Pointer) (cursor length : ℕ) : Watched Followed Exc Unit :=
  notes ((List.range length).map fun ahead => ⟨base, cursor + ahead⟩)

/-- `rva_offset`, and a note of the byte that it looks for. -/
def follow (rva : ℕ) : Watched Followed Exc Pointer := do
  let place ← lift (rvaOffset data sections rva)
  reads ⟨rva, place⟩ place 1
  return ⟨rva, place⟩

/-- The number of bytes that `cstring` looks at: the terminator is the last, or there is none. -/
def scanned (offset : ℕ) : ℕ :=
  let stop := min data.length (offset + maxName)
  match findNul data offset stop with
  | some terminator => terminator + 1 - offset
  | none => stop - offset

/-- `cstring`. -/
def cstringWatched (base : Pointer) (offset : ℕ) : Watched Followed Exc PyStr := do
  reads base offset (scanned data offset)
  lift (cstring data offset)

/-- `peThunk`, in a table that begins at a pointer. -/
def peThunkWatched (is64 : Bool) (base : Pointer) (state : ℕ × List PeSymbol) :
    Watched Followed Exc (Next (ℕ × List PeSymbol) (List PeSymbol)) := do
  let (cursor, symbols) := state
  let width := if is64 then 8 else 4
  lift (need data cursor width "PE import thunk")
  reads base cursor width
  let value := leNat (slice data cursor (cursor + width))
  if value = 0 then return .done symbols
  else if value.testBit (width * 8 - 1) then
    return .again (cursor + width, symbols ++ [.ordinal (value % 2 ^ 16)])
  else do
    let nameAt ← follow data sections value
    lift (need data nameAt.place 2 "PE import hint")
    reads nameAt nameAt.place 2
    let name ← cstringWatched data nameAt (nameAt.place + 2)
    return .again (cursor + width, symbols ++ [.name name])

/-- `peDescriptor`, in a table that begins at a pointer. -/
def peDescriptorWatched (is64 : Bool) (base : Pointer) (state : ℕ × List PeImport) :
    Watched Followed Exc (Next (ℕ × List PeImport) (List PeImport)) := do
  let (cursor, imports) := state
  lift (need data cursor 20 "PE import descriptor")
  reads base cursor 20
  let fields ← lift (unpackFrom data cursor 20
    (le32 data cursor, le32 data (cursor + 12), le32 data (cursor + 16)))
  let (original, nameRva, thunk) := fields
  if original = 0 ∧ nameRva = 0 ∧ thunk = 0 then return .done imports
  else do
    let nameAt ← follow data sections nameRva
    let library ← cstringWatched data nameAt nameAt.place
    let thunks ← follow data sections (if original = 0 then thunk else original)
    let symbols ← Watched.forever (.executable "PE import symbol count exceeds limit")
      (peThunkWatched data sections is64 thunks) maxImports (thunks.place, [])
    return .again (cursor + 20, imports ++ [{ library := library, symbols := symbols }])

/-- `peImports`. -/
def peImportsWatched (is64 : Bool) (directories : List PeDirectory) :
    Watched Followed Exc (List PeImport) :=
  let rva := (directories[1]?.map (·.rva)).getD 0
  if rva = 0 then return []
  else do
    let table ← follow data sections rva
    Watched.forever (.executable "PE import descriptor count exceeds limit")
      (peDescriptorWatched data sections is64 table) maxImports (table.place, [])

/-- `peExport`, in tables that begin at pointers. -/
def peExportWatched (ordinalBase : ℕ) (names ordinals : Pointer) (index : ℕ) :
    Watched Followed Exc PeExport := do
  lift (need data (names.place + index * 4) 4 "PE export name pointer")
  lift (need data (ordinals.place + index * 2) 2 "PE export ordinal")
  reads names (names.place + index * 4) 4
  reads ordinals (ordinals.place + index * 2) 2
  let nameRva ← lift
    (unpackFrom data (names.place + index * 4) 4 (le32 data (names.place + index * 4)))
  let ordinal ← lift
    (unpackFrom data (ordinals.place + index * 2) 2 (le16 data (ordinals.place + index * 2)))
  let nameAt ← follow data sections nameRva
  let name ← cstringWatched data nameAt nameAt.place
  return { name := name, ordinal := ordinalBase + ordinal }

/-- `peExports`. -/
def peExportsWatched (directories : List PeDirectory) : Watched Followed Exc (List PeExport) :=
  let rva := (directories[0]?.map (·.rva)).getD 0
  if rva = 0 then return []
  else do
    let directory ← follow data sections rva
    let exp := directory.place
    lift (need data exp 40 "PE export directory")
    reads directory exp 40
    let fields ← lift (unpackFrom data (exp + 16) 24
      (le32 data (exp + 16), le32 data (exp + 20), le32 data (exp + 24), le32 data (exp + 32),
        le32 data (exp + 36)))
    let (ordinalBase, functionCount, nameCount, namesRva, ordinalsRva) := fields
    if functionCount > maxSymbols ∨ nameCount > maxSymbols then
      lift (throw (.executable "PE export count exceeds limit"))
    else do
      let names ← follow data sections namesRva
      let ordinals ← follow data sections ordinalsRva
      (List.range nameCount).mapM (peExportWatched data sections ordinalBase names ordinals)

end Tables

/-! ## The same reader -/

section

variable {data : Bytes} {sections : List PeSection}

@[simp] lemma result_reads (base : Pointer) (cursor length : ℕ) :
    (reads base cursor length).result = .ok () := rfl

@[simp] lemma result_follow (rva : ℕ) :
    (follow data sections rva).result =
      rvaOffset data sections rva >>= fun place => .ok ⟨rva, place⟩ := by
  rw [follow, result_bind, result_lift]
  rfl

@[simp] lemma result_cstringWatched (base : Pointer) (offset : ℕ) :
    (cstringWatched data base offset).result = cstring data offset := rfl

lemma result_peThunkWatched (is64 : Bool) (base : Pointer) (state : ℕ × List PeSymbol) :
    (peThunkWatched data sections is64 base state).result = peThunk data sections is64 state := by
  unfold peThunkWatched peThunk
  simp only [result_bind, result_ite, result_lift, result_follow, result_pure, result_reads,
    result_cstringWatched, bind_assoc, ok_bind]
  rfl

lemma result_peDescriptorWatched (is64 : Bool) (base : Pointer) (state : ℕ × List PeImport) :
    (peDescriptorWatched data sections is64 base state).result =
      peDescriptor data sections is64 state := by
  unfold peDescriptorWatched peDescriptor
  simp only [result_bind, result_ite, result_lift, result_follow, result_pure, result_forever,
    result_peThunkWatched, result_reads, result_cstringWatched, bind_assoc, ok_bind]
  rfl

lemma result_peImportsWatched (is64 : Bool) (directories : List PeDirectory) :
    (peImportsWatched data sections is64 directories).result =
      peImports data sections is64 directories := by
  unfold peImportsWatched peImports
  simp only [result_bind, result_ite, result_follow, result_pure, result_forever,
    result_peDescriptorWatched, bind_assoc, ok_bind]

lemma result_peExportWatched (ordinalBase : ℕ) (names ordinals : Pointer) (index : ℕ) :
    (peExportWatched data sections ordinalBase names ordinals index).result =
      peExport data sections ordinalBase names.place ordinals.place index := by
  unfold peExportWatched peExport
  simp only [result_bind, result_lift, result_follow, result_pure, result_reads,
    result_cstringWatched, bind_assoc, ok_bind]
  rfl

lemma result_peExportsWatched (directories : List PeDirectory) :
    (peExportsWatched data sections directories).result = peExports data sections directories := by
  unfold peExportsWatched peExports
  simp only [result_bind, result_ite, result_lift, result_follow, result_pure, result_mapM,
    result_peExportWatched, result_reads, bind_assoc, ok_bind]
  rfl

end

section Run

variable (data : Bytes) (offset : ℕ)

instance : Decidable (PeReadable data offset) :=
  decidable_of_iff
    (((offset + 24 ≤ data.length ∧ peSectionCount data offset ≤ maxSections) ∧
        (peSectionTable data offset ≤ data.length ∧
          (le16 data (offset + 24) = 0x10B ∨ le16 data (offset + 24) = 0x20B)) ∧
        peDirectoryTable data offset ≤ peSectionTable data offset) ∧
      peDirectoryTable data offset + peDirectoryCount data offset * 8 ≤ data.length ∧
      peSectionTable data offset + peSectionCount data offset * 40 ≤ data.length ∧
      ∀ row ∈ peSections data offset, row.rawSize ≠ 0 → row.rawOffset + row.rawSize ≤ data.length)
    ⟨fun ⟨⟨⟨hcoff, hcount⟩, ⟨hoptional, hmagic⟩, hminimum⟩, hdirectories, htable, hraw⟩ =>
      ⟨⟨hcoff, hcount, hoptional, hmagic, hminimum⟩, hdirectories, htable, hraw⟩,
    fun ⟨⟨hcoff, hcount, hoptional, hmagic, hminimum⟩, hdirectories, htable, hraw⟩ =>
      ⟨⟨⟨hcoff, hcount⟩, ⟨hoptional, hmagic⟩, hminimum⟩, hdirectories, htable, hraw⟩⟩

/-- `_parse_pe`.  Addresses are followed once the headers have been read. -/
def parsePeWatched : Watched Followed Exc ParsedExecutable :=
  if PeReadable data offset then do
    let imports ← peImportsWatched data (peSections data offset) (peIs64 data offset)
      (peDirectories data offset)
    let exports ← peExportsWatched data (peSections data offset) (peDirectories data offset)
    return peReport data offset imports exports
  else lift (parsePe data offset)

/-- The bytes that a run reads by a relative address. -/
def peFollowed : List Followed := (parsePeWatched data offset).events

end Run

/-- The watched reader is the reader. -/
theorem result_parsePeWatched (data : Bytes) (offset : ℕ) :
    (parsePeWatched data offset).result = parsePe data offset := by
  unfold parsePeWatched
  split
  · next h =>
      rw [parsePe_of_readable h]
      simp only [result_bind, result_pure, result_peImportsWatched, result_peExportsWatched]
      rfl
  · rfl

/-! ## Where an address is taken -/

/-- The place of the byte is where the raw data of a section has its address. -/
def RawBacked (sections : List PeSection) (followed : Followed) : Prop :=
  ∃ row ∈ sections, row.rva ≤ followed.rva ∧ followed.rva < row.rva + row.rawSize ∧
    followed.place = row.rawOffset + (followed.rva - row.rva)

/-- The section that an address is translated by: the first whose span has it. -/
def spanning (sections : List PeSection) (rva : ℕ) : Option PeSection :=
  sections.find? fun row =>
    decide (row.rva ≤ rva ∧ rva < row.rva + max row.virtualSize row.rawSize)

/-- The address `rva` lies behind the raw data of the section that `base` is translated by, and no
other section has it at that place of the file in its raw data. -/
def InTail (sections : List PeSection) (base rva : ℕ) : Prop :=
  ∃ row, spanning sections base = some row ∧ row.rva + row.rawSize ≤ rva ∧
    ∀ other ∈ sections, other.rva ≤ rva → rva < other.rva + other.rawSize →
      other.rawOffset + (rva - other.rva) ≠ row.rawOffset + (rva - row.rva)

/-- The pointer is what `rva_offset` makes of its address. -/
def Pointer.Translated (data : Bytes) (sections : List PeSection) (pointer : Pointer) : Prop :=
  rvaOffset data sections pointer.rva = .ok pointer.place

/-- The byte is read on from a translated pointer. -/
structure Followed.Translated (data : Bytes) (sections : List PeSection) (followed : Followed) :
    Prop where
  base : followed.base.Translated data sections
  ahead : followed.base.place ≤ followed.place

section

variable {data : Bytes} {sections : List PeSection} {base : Pointer}

lemma sees_reads (hbase : base.Translated data sections) {cursor : ℕ} (hahead : base.place ≤ cursor)
    (length : ℕ) : Sees (Followed.Translated data sections) (reads base cursor length) := by
  refine .notes fun followed hfollowed => ?_
  obtain ⟨ahead, -, rfl⟩ := List.mem_map.1 hfollowed
  exact ⟨hbase, hahead.trans (Nat.le_add_right _ _)⟩

lemma translated_of_follow {rva : ℕ} (h : (follow data sections rva).result = .ok base) :
    base.Translated data sections := by
  rw [result_follow] at h
  obtain ⟨place, hplace, hbase⟩ := bind_eq_ok.1 h
  obtain rfl := Except.ok.inj hbase
  exact hplace

lemma sees_follow (rva : ℕ) :
    Sees (Followed.Translated data sections) (follow data sections rva) := by
  refine .bind (.lift _) fun place hplace => ?_
  have htranslated : (Pointer.mk rva place).Translated data sections := hplace
  exact .bind (sees_reads htranslated le_rfl 1) fun _ _ => .pure _

lemma sees_cstringWatched (hbase : base.Translated data sections) {offset : ℕ}
    (hahead : base.place ≤ offset) :
    Sees (Followed.Translated data sections) (cstringWatched data base offset) :=
  .bind (sees_reads hbase hahead _) fun _ _ => .lift _

lemma sees_peThunkWatched (is64 : Bool) (hbase : base.Translated data sections)
    {state : ℕ × List PeSymbol} (hahead : base.place ≤ state.1) :
    Sees (Followed.Translated data sections) (peThunkWatched data sections is64 base state) := by
  unfold peThunkWatched
  refine .bind (.lift _) fun _ _ => .bind (sees_reads hbase hahead _) fun _ _ => ?_
  refine .ite (fun _ => .pure _) fun _ => .ite (fun _ => .pure _) fun _ => ?_
  refine .bind (sees_follow _) fun nameAt hfollow => .bind (.lift _) fun _ _ => ?_
  have hnameAt := translated_of_follow hfollow
  refine .bind (sees_reads hnameAt le_rfl 2) fun _ _ => ?_
  exact .bind (sees_cstringWatched hnameAt (Nat.le_add_right _ _)) fun _ _ => .pure _

/-- A pass over the thunks goes on behind the thunk. -/
lemma peThunk_again {is64 : Bool} {state state' : ℕ × List PeSymbol}
    (h : peThunk data sections is64 state = .ok (.again state')) : state.1 ≤ state'.1 := by
  obtain ⟨_, -, h⟩ := bind_eq_ok.1 h
  dsimp only at h
  generalize (if is64 then 8 else 4) = width at h
  split at h
  · cases Except.ok.inj h
  split at h
  · cases Except.ok.inj h
    exact Nat.le_add_right _ _
  · obtain ⟨_, -, h⟩ := bind_eq_ok.1 h
    obtain ⟨_, -, h⟩ := bind_eq_ok.1 h
    obtain ⟨_, -, h⟩ := bind_eq_ok.1 h
    cases Except.ok.inj h
    exact Nat.le_add_right _ _

lemma sees_thunks (is64 : Bool) (hbase : base.Translated data sections) (unending : Exc)
    (fuel : ℕ) : Sees (Followed.Translated data sections) (Watched.forever unending
      (peThunkWatched data sections is64 base) fuel (base.place, [])) := by
  refine .forever (I := fun state => base.place ≤ state.1)
    (fun state hahead => sees_peThunkWatched is64 hbase hahead) (fun state state' hahead h => ?_)
    fuel le_rfl
  rw [result_peThunkWatched] at h
  exact hahead.trans (peThunk_again h)

lemma sees_peDescriptorWatched (is64 : Bool) (hbase : base.Translated data sections)
    {state : ℕ × List PeImport} (hahead : base.place ≤ state.1) :
    Sees (Followed.Translated data sections)
      (peDescriptorWatched data sections is64 base state) := by
  unfold peDescriptorWatched
  refine .bind (.lift _) fun _ _ => .bind (sees_reads hbase hahead _) fun _ _ => ?_
  refine .bind (.lift _) fun fields _ => .ite (fun _ => .pure _) fun _ => ?_
  refine .bind (sees_follow _) fun nameAt hname => ?_
  refine .bind (sees_cstringWatched (translated_of_follow hname) le_rfl) fun _ _ => ?_
  refine .bind (sees_follow _) fun thunks hthunks => ?_
  exact .bind (sees_thunks is64 (translated_of_follow hthunks) _ _) fun _ _ => .pure _

/-- A pass over the descriptors goes on behind the descriptor. -/
lemma peDescriptor_again {is64 : Bool} {state state' : ℕ × List PeImport}
    (h : peDescriptor data sections is64 state = .ok (.again state')) : state.1 ≤ state'.1 := by
  obtain ⟨_, -, h⟩ := bind_eq_ok.1 h
  obtain ⟨fields, -, h⟩ := bind_eq_ok.1 h
  dsimp only at h
  split at h
  · cases Except.ok.inj h
  · obtain ⟨_, -, h⟩ := bind_eq_ok.1 h
    obtain ⟨_, -, h⟩ := bind_eq_ok.1 h
    obtain ⟨_, -, h⟩ := bind_eq_ok.1 h
    obtain ⟨_, -, h⟩ := bind_eq_ok.1 h
    cases Except.ok.inj h
    exact Nat.le_add_right _ _

lemma sees_peImportsWatched (is64 : Bool) (directories : List PeDirectory) :
    Sees (Followed.Translated data sections)
      (peImportsWatched data sections is64 directories) := by
  unfold peImportsWatched
  refine .ite (fun _ => .pure _) fun _ => .bind (sees_follow _) fun table htable => ?_
  have hbase := translated_of_follow htable
  refine .forever (I := fun state => table.place ≤ state.1)
    (fun state hahead => sees_peDescriptorWatched is64 hbase hahead)
    (fun state state' hahead h => ?_) _ le_rfl
  rw [result_peDescriptorWatched] at h
  exact hahead.trans (peDescriptor_again h)

lemma sees_peExportWatched {ordinalBase : ℕ} {names ordinals : Pointer}
    (hnames : names.Translated data sections) (hordinals : ordinals.Translated data sections)
    (index : ℕ) : Sees (Followed.Translated data sections)
      (peExportWatched data sections ordinalBase names ordinals index) := by
  unfold peExportWatched
  refine .bind (.lift _) fun _ _ => .bind (.lift _) fun _ _ => ?_
  refine .bind (sees_reads hnames (Nat.le_add_right _ _) 4) fun _ _ => ?_
  refine .bind (sees_reads hordinals (Nat.le_add_right _ _) 2) fun _ _ => ?_
  refine .bind (.lift _) fun _ _ => .bind (.lift _) fun _ _ => ?_
  refine .bind (sees_follow _) fun nameAt hname => ?_
  exact .bind (sees_cstringWatched (translated_of_follow hname) le_rfl) fun _ _ => .pure _

lemma sees_peExportsWatched (directories : List PeDirectory) :
    Sees (Followed.Translated data sections) (peExportsWatched data sections directories) := by
  unfold peExportsWatched
  refine .ite (fun _ => .pure _) fun _ => .bind (sees_follow _) fun directory hdirectory => ?_
  refine .bind (.lift _) fun _ _ => ?_
  refine .bind (sees_reads (translated_of_follow hdirectory) le_rfl 40) fun _ _ => ?_
  refine .bind (.lift _) fun fields _ => .ite (fun _ => .lift _) fun _ => ?_
  refine .bind (sees_follow _) fun names hnames => ?_
  refine .bind (sees_follow _) fun ordinals hordinals => ?_
  exact .mapM fun index _ =>
    sees_peExportWatched (translated_of_follow hnames) (translated_of_follow hordinals) index

/-- What the translation of an address comes to. -/
lemma Pointer.translated_iff {pointer : Pointer} :
    pointer.Translated data sections ↔ ∃ row, spanning sections pointer.rva = some row ∧
      pointer.place = row.rawOffset + pointer.rva - row.rva ∧ pointer.place < data.length := by
  unfold Pointer.Translated rvaOffset spanning
  cases sections.find? _ with
  | none =>
      refine iff_of_false (fun h => ?_) ?_
      · cases h
      · rintro ⟨row, hrow, -⟩
        cases hrow
  | some row =>
      constructor
      · intro h
        obtain ⟨_, hneed, hplace⟩ := bind_eq_ok.1 h
        have hsame : row.rawOffset + pointer.rva - row.rva = pointer.place := Except.ok.inj hplace
        exact ⟨row, rfl, hsame.symm, hsame ▸ need_eq_ok.1 hneed⟩
      · rintro ⟨_, ⟨⟩, hplace, hlt⟩
        dsimp only
        rw [← hplace, need_bind hlt]
        rfl

end

/-- Every byte is read on from a translated address. -/
lemma sees_parsePeWatched (data : Bytes) (offset : ℕ) :
    Sees (Followed.Translated data (peSections data offset)) (parsePeWatched data offset) := by
  unfold parsePeWatched
  refine .ite (fun _ => ?_) fun _ => .lift _
  refine .bind (sees_peImportsWatched _ _) fun _ _ => ?_
  exact .bind (sees_peExportsWatched _) fun _ _ => .pure _

/-- A byte is at its place in the raw data of a section unless it lies in the tail of the section
by which the address it is read on from was translated. -/
lemma rawBacked_iff {data : Bytes} {sections : List PeSection} {followed : Followed}
    (h : followed.Translated data sections) :
    RawBacked sections followed ↔ ¬InTail sections followed.base.rva followed.rva := by
  obtain ⟨row, hrow, hplace, -⟩ := Pointer.translated_iff.1 h.base
  have hspan := List.find?_some hrow
  have hahead := h.ahead
  simp only [decide_eq_true_eq] at hspan
  have hfrom : followed.place = row.rawOffset + (followed.rva - row.rva) := by
    unfold Followed.rva
    omega
  have hle : row.rva ≤ followed.rva := by
    unfold Followed.rva
    omega
  constructor
  · rintro ⟨other, hother, hle, hlt, hsame⟩ ⟨row', hrow', -, hapart⟩
    obtain rfl := Option.some.inj (hrow.symm.trans hrow')
    exact hapart other hother hle hlt (hsame.symm.trans hfrom)
  · intro htail
    by_cases hraw : followed.rva < row.rva + row.rawSize
    · exact ⟨row, List.mem_of_find?_eq_some hrow, hle, hraw, hfrom⟩
    · by_contra hbacked
      refine htail ⟨row, hrow, Nat.le_of_not_lt hraw, fun other hother hle hlt hsame => ?_⟩
      exact hbacked ⟨other, hother, hle, hlt, hfrom.trans hsame.symm⟩

/-- The places are right in every run that reads no byte in the tail of the section by which the
address of its table or string was translated. -/
theorem followed_rawBacked_iff (data : Bytes) (offset : ℕ) :
    (∀ followed ∈ peFollowed data offset, RawBacked (peSections data offset) followed) ↔
      ∀ followed ∈ peFollowed data offset,
        ¬InTail (peSections data offset) followed.base.rva followed.rva :=
  forall₂_congr fun followed hfollowed =>
    rawBacked_iff (sees_parsePeWatched data offset followed hfollowed)

/-- A file whose import directory lies in the tail of its section, which has four bytes of raw data,
and an overlay of a null descriptor. -/
def tailImports : Bytes :=
  peFile (List.replicate 8 0 ++ [4, 16, 0, 0, 20, 0, 0, 0])
    (List.replicate 8 0 ++ [64, 0, 0, 0, 0, 16, 0, 0, 4, 0, 0, 0, 240, 0, 0, 0] ++
      List.replicate 16 0) (ascii "data" ++ List.replicate 20 0)

/-- The import directory is read from the overlay. -/
theorem overlay_read_as_imports :
    ¬∀ data offset, ∀ followed ∈ peFollowed data offset,
      RawBacked (peSections data offset) followed := by
  intro h
  have hfollowed : ⟨⟨0x1004, 244⟩, 244⟩ ∈ peFollowed tailImports 64 := by decide +kernel
  obtain ⟨row, hrow, hle, hlt, -⟩ := h tailImports 64 _ hfollowed
  have hraw : ∀ row ∈ peSections tailImports 64, row.rva = 0x1000 ∧ row.rawSize = 4 := by
    decide +kernel
  obtain ⟨hrva, hsize⟩ := hraw row hrow
  change 0x1004 < row.rva + row.rawSize at hlt
  omega

end Executable

end AVBox
