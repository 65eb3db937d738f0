import AVBox.Analyzers.PeFiles
import AVBox.Lib.Layout

/-!
# The import and export tables of PE files

What a PE file with one section contains when its tables are laid out as the format prescribes
(`TableFile`): descriptors, thunks, hints, names and the export directory, each at its relative
address in the raw data of the section.  Nothing is said about their order, so tables may share
bytes.

`tables_read_back_iff` says which of these files the reader reads back.  The name and ordinal tables
of the export directory are translated even if there are no names, and then their addresses may be
zero.
-/

namespace AVBox

open Binary Fallible Loop

namespace Executable

/-! ## What a file contains -/

/-- The bytes stand at a relative address in the raw data of the section. -/
def Holds (data : Bytes) (row : PeSection) (rva : ℕ) (piece : Bytes) : Prop :=
  row.rva ≤ rva ∧ rva + piece.length ≤ row.rva + row.rawSize ∧
    At data (row.rawOffset + (rva - row.rva)) piece

/-- The text of a name, without the zero byte that ends it. -/
structure IsText (text : Bytes) : Prop where
  zero : 0 ∉ text
  short : text.length < maxName

/-- The width of a thunk. -/
def thunkWidth (is64 : Bool) : ℕ := if is64 then 8 else 4

/-- An imported symbol, as the file has it. -/
inductive StoredSymbol
  | ordinal (value : ℕ)
  | name (rva hint : ℕ) (text : Bytes)
  deriving DecidableEq

/-- The thunk of a symbol: an ordinal with the flag, or the address of the hint and the name. -/
def StoredSymbol.word (is64 : Bool) : StoredSymbol → ℕ
  | .ordinal value => 2 ^ (thunkWidth is64 * 8 - 1) + value
  | .name rva _ _ => rva

def StoredSymbol.InFile (data : Bytes) (row : PeSection) : StoredSymbol → Prop
  | .ordinal value => value < 2 ^ 16
  | .name rva hint text =>
      0 < rva ∧ rva < 2 ^ 31 ∧ IsText text ∧ Holds data row rva (leBytes 2 hint ++ (text ++ [0]))

def StoredSymbol.reported : StoredSymbol → PeSymbol
  | .ordinal value => .ordinal value
  | .name _ _ text => .name (PyStr.decodeUtf8 text)

/-- An import library, as the file has it. -/
structure StoredImport where
  original : ℕ
  timestamp : ℕ
  forwarder : ℕ
  nameRva : ℕ
  thunk : ℕ
  library : Bytes
  symbols : List StoredSymbol
  deriving DecidableEq

def StoredImport.descriptor (library : StoredImport) : Bytes :=
  [library.original, library.timestamp, library.forwarder, library.nameRva, library.thunk].flatMap
    (leBytes 4)

/-- The thunks, ended by a zero word. -/
def StoredImport.thunks (is64 : Bool) (library : StoredImport) : Bytes :=
  library.symbols.flatMap (fun symbol => leBytes (thunkWidth is64) (symbol.word is64)) ++
    leBytes (thunkWidth is64) 0

structure StoredImport.InFile (data : Bytes) (row : PeSection) (is64 : Bool)
    (library : StoredImport) : Prop where
  original : library.original < 2 ^ 32
  thunk : library.thunk < 2 ^ 32
  nameRva : 0 < library.nameRva ∧ library.nameRva < 2 ^ 32
  text : IsText library.library
  name : Holds data row library.nameRva (library.library ++ [0])
  table : Holds data row (if library.original = 0 then library.thunk else library.original)
    (library.thunks is64)
  symbols : ∀ symbol ∈ library.symbols, symbol.InFile data row

def StoredImport.reported (library : StoredImport) : PeImport :=
  { library := PyStr.decodeUtf8 library.library
    symbols := library.symbols.map StoredSymbol.reported }

/-- An exported name, as the file has it: its address, its text, and its place in the table of the
functions. -/
structure StoredExport where
  rva : ℕ
  text : Bytes
  index : ℕ
  deriving DecidableEq

structure StoredExport.InFile (data : Bytes) (row : PeSection) (entry : StoredExport) : Prop where
  rva : entry.rva < 2 ^ 32
  index : entry.index < 2 ^ 16
  text : IsText entry.text
  name : Holds data row entry.rva (entry.text ++ [0])

/-- The export directory, as the file has it. -/
structure StoredExports where
  characteristics : ℕ
  timestamp : ℕ
  version : ℕ
  nameRva : ℕ
  ordinalBase : ℕ
  functionCount : ℕ
  functionsRva : ℕ
  namesRva : ℕ
  ordinalsRva : ℕ
  names : List StoredExport
  deriving DecidableEq

def StoredExports.directory (exports : StoredExports) : Bytes :=
  [exports.characteristics, exports.timestamp, exports.version, exports.nameRva,
    exports.ordinalBase, exports.functionCount, exports.names.length, exports.functionsRva,
    exports.namesRva, exports.ordinalsRva].flatMap (leBytes 4)

/-- The directory stands at its address, and unless there are no names so do the tables of the names
and of the ordinals. -/
structure StoredExports.InFile (data : Bytes) (row : PeSection) (rva : ℕ)
    (exports : StoredExports) : Prop where
  directory : Holds data row rva exports.directory
  ordinalBase : exports.ordinalBase < 2 ^ 32
  functionCount : exports.functionCount < 2 ^ 32
  count : exports.names.length < 2 ^ 32
  namesRva : exports.namesRva < 2 ^ 32
  ordinalsRva : exports.ordinalsRva < 2 ^ 32
  nameTable : exports.names ≠ [] →
    Holds data row exports.namesRva (exports.names.flatMap fun entry => leBytes 4 entry.rva)
  ordinalTable : exports.names ≠ [] →
    Holds data row exports.ordinalsRva (exports.names.flatMap fun entry => leBytes 2 entry.index)
  names : ∀ entry ∈ exports.names, entry.InFile data row

def StoredExports.reported (exports : StoredExports) : List PeExport :=
  exports.names.map fun entry =>
    { name := PyStr.decodeUtf8 entry.text, ordinal := exports.ordinalBase + entry.index }

/-- The address of a data directory, which is zero if there is none. -/
def directoryRva (data : Bytes) (index : ℕ) : ℕ :=
  ((peDirectories data (le32 data 60))[index]?.map (·.rva)).getD 0

/-- A PE file with one section, all of which has raw data, with these import libraries and this
export directory. -/
structure TableFile (data : Bytes) (row : PeSection) (imports : List StoredImport)
    (exports : Option StoredExports) : Prop where
  magic : slice data 0 2 = ascii "MZ"
  enters : EntersPe data
  readable : PeReadable data (le32 data 60)
  sections : peSections data (le32 data 60) = [row]
  sizes : row.virtualSize = row.rawSize
  noImports : directoryRva data 1 = 0 → imports = []
  descriptors : directoryRva data 1 ≠ 0 → Holds data row (directoryRva data 1)
    (imports.flatMap StoredImport.descriptor ++ List.replicate 20 0)
  imports : ∀ library ∈ imports, library.InFile data row (peIs64 data (le32 data 60))
  noExports : directoryRva data 0 = 0 ↔ exports = none
  exports : ∀ directory ∈ exports, directory.InFile data row (directoryRva data 0)

/-! ## Addresses and names -/

/-- The address lies in the section. -/
def Mapped (row : PeSection) (rva : ℕ) : Prop := row.rva ≤ rva ∧ rva < row.rva + row.rawSize

/-- All of the section is raw data that lies in the file. -/
structure Whole (data : Bytes) (row : PeSection) : Prop where
  sizes : row.virtualSize = row.rawSize
  raw : row.rawSize ≠ 0 → row.rawOffset + row.rawSize ≤ data.length

section

variable {data : Bytes} {row : PeSection}

lemma rvaOffset_eq_ok_iff (h : Whole data row) {rva place : ℕ} :
    rvaOffset data [row] rva = .ok place ↔
      Mapped row rva ∧ place = row.rawOffset + (rva - row.rva) := by
  have hraw := h.raw
  unfold rvaOffset Mapped
  rw [List.find?_cons, h.sizes, max_self]
  by_cases hmapped : row.rva ≤ rva ∧ rva < row.rva + row.rawSize
  · rw [decide_eq_true hmapped, and_iff_right hmapped]
    dsimp only
    rw [need_bind (by omega), Nat.add_sub_assoc hmapped.1]
    exact ⟨fun h => (Except.ok.inj h).symm, fun h => h ▸ rfl⟩
  · rw [decide_eq_false hmapped]
    refine iff_of_false (fun h => ?_) fun h => hmapped h.1
    cases h

lemma Holds.mapped {rva : ℕ} {piece : Bytes} (h : Holds data row rva piece)
    (hpiece : 0 < piece.length) : Mapped row rva := by
  obtain ⟨hle, hstop, -⟩ := h
  exact ⟨hle, by omega⟩

/-- What stands at an address is found there. -/
lemma Holds.rvaOffset_eq {rva : ℕ} {piece : Bytes} (h : Holds data row rva piece)
    (hwhole : Whole data row) (hpiece : 0 < piece.length) :
    rvaOffset data [row] rva = .ok (row.rawOffset + (rva - row.rva)) :=
  (rvaOffset_eq_ok_iff hwhole).2 ⟨h.mapped hpiece, rfl⟩

lemma idxOf?_append_cons {byte : UInt8} {bytes rest : Bytes} (h : byte ∉ bytes) :
    (bytes ++ byte :: rest).idxOf? byte = some bytes.length := by
  induction bytes with
  | nil => simp [List.idxOf?_cons]
  | cons first bytes ih =>
      obtain ⟨hfirst, hbytes⟩ := not_or.1 (mt List.mem_cons.2 h)
      rw [List.cons_append, List.idxOf?_cons, if_neg (by simpa using Ne.symm hfirst), ih hbytes]
      rfl

/-- A name is read up to its zero byte. -/
lemma cstring_of_at {offset : ℕ} {text : Bytes} (h : At data offset (text ++ [0]))
    (htext : IsText text) : cstring data offset = .ok (PyStr.decodeUtf8 text) := by
  have hle := h.stop_le
  have hshort := htext.short
  rw [List.length_append, List.length_singleton] at hle
  have hfind : findNul data offset (min data.length (offset + maxName)) =
      some (offset + text.length) := by
    have hslice := h.slice_eq
    rw [List.length_append, List.length_singleton] at hslice
    rw [findNul, @slice_split data offset (offset + (text.length + 1)) _ (by omega) (by omega),
      hslice, List.append_assoc, List.singleton_append, idxOf?_append_cons htext.zero]
    rfl
  unfold cstring
  rw [need_bind (by omega), hfind]
  exact congrArg (fun bytes => Except.ok (PyStr.decodeUtf8 bytes)) h.left.slice_eq

/-! ## Imports -/

lemma word_lt (is64 : Bool) {symbol : StoredSymbol} (h : symbol.InFile data row) :
    symbol.word is64 < 256 ^ thunkWidth is64 := by
  cases symbol with
  | ordinal value =>
      have hvalue : value < 2 ^ 16 := h
      cases is64 <;> simp only [StoredSymbol.word, thunkWidth, if_true, if_false,
        Bool.false_eq_true] <;> omega
  | name rva hint text =>
      have hrva : rva < 2 ^ 31 := h.2.1
      cases is64 <;> simp only [StoredSymbol.word, thunkWidth, if_true, if_false,
        Bool.false_eq_true] <;> omega

/-- Where the thunk loop stands: these thunks and the zero word are to come. -/
def ThunksAhead (data : Bytes) (row : PeSection) (is64 : Bool) (state : ℕ × List PeSymbol)
    (symbols : List StoredSymbol) : Prop :=
  At data state.1 (symbols.flatMap (fun symbol => leBytes (thunkWidth is64) (symbol.word is64)) ++
      leBytes (thunkWidth is64) 0) ∧
    ∀ symbol ∈ symbols, symbol.InFile data row

/-- A pass with an item, at a state that is a cursor and a list. -/
def passOver {α β : Type} (step : ℕ) (report : α → β) (state : ℕ × List β) (item : α) :
    ℕ × List β :=
  (state.1 + step, state.2 ++ [report item])

lemma foldl_passOver {α β : Type} (step : ℕ) (report : α → β) (items : List α)
    (state : ℕ × List β) :
    (items.foldl (passOver step report) state).2 = state.2 ++ items.map report := by
  induction items generalizing state with
  | nil => simp
  | cons item items ih => simp [ih, passOver]

/-- A pass over the thunks, by the word it reads. -/
lemma peThunk_of_word {sections : List PeSection} {is64 : Bool} {state : ℕ × List PeSymbol}
    {value : ℕ} (hfits : state.1 + thunkWidth is64 ≤ data.length)
    (hword : leNat (slice data state.1 (state.1 + thunkWidth is64)) = value) :
    peThunk data sections is64 state =
      if value = 0 then .ok (.done state.2)
      else if value.testBit (thunkWidth is64 * 8 - 1) then
        .ok (.again (passOver (thunkWidth is64) PeSymbol.ordinal state (value % 2 ^ 16)))
      else do
        let nameAt ← rvaOffset data sections value
        need data nameAt 2 "PE import hint"
        let name ← cstring data (nameAt + 2)
        return .again (passOver (thunkWidth is64) PeSymbol.name state name) := by
  subst hword
  exact need_bind hfits

lemma peThunk_symbol (hwhole : Whole data row) {is64 : Bool} {state : ℕ × List PeSymbol}
    {symbol : StoredSymbol} {rest : List StoredSymbol}
    (h : ThunksAhead data row is64 state (symbol :: rest)) :
    peThunk data [row] is64 state =
        .ok (.again (passOver (thunkWidth is64) StoredSymbol.reported state symbol)) ∧
      ThunksAhead data row is64 (passOver (thunkWidth is64) StoredSymbol.reported state symbol)
        rest := by
  obtain ⟨hat, hsymbols⟩ := h
  obtain ⟨hsymbol, hrest⟩ := List.forall_mem_cons.1 hsymbols
  rw [List.flatMap_cons, List.append_assoc] at hat
  have hright := hat.right
  rw [length_leBytes] at hright
  refine ⟨?_, hright, hrest⟩
  have hfits := hat.left.stop_le
  have hword := hat.left.leNat_eq (word_lt is64 hsymbol)
  rw [length_leBytes] at hfits
  rw [peThunk_of_word hfits hword]
  cases symbol with
  | ordinal value =>
      have hvalue : value < 2 ^ 16 := hsymbol
      have hflag : 2 ^ (thunkWidth is64 * 8 - 1) % 2 ^ 16 = 0 := by cases is64 <;> rfl
      have hlarge : 2 ^ 16 ≤ 2 ^ (thunkWidth is64 * 8 - 1) := by cases is64 <;> decide
      have hmod : (2 ^ (thunkWidth is64 * 8 - 1) + value) % 2 ^ 16 = value := by omega
      have hbit : (2 ^ (thunkWidth is64 * 8 - 1) + value).testBit (thunkWidth is64 * 8 - 1) := by
        rw [Nat.testBit_two_pow_add_eq, Nat.testBit_lt_two_pow (by omega)]
        rfl
      rw [StoredSymbol.word, if_neg (by omega), if_pos hbit, hmod]
      rfl
  | name rva hint text =>
      obtain ⟨hpos, hlt, htext, hholds⟩ := hsymbol
      have hlarge : 2 ^ 31 ≤ 2 ^ (thunkWidth is64 * 8 - 1) := by cases is64 <;> decide
      have hplace := hholds.2.2
      have hname := hplace.right
      have hhint := hplace.left.stop_le
      rw [length_leBytes] at hname hhint
      rw [StoredSymbol.word, if_neg (by omega), Nat.testBit_lt_two_pow (by omega),
        if_neg (by simp), hholds.rvaOffset_eq hwhole (by simp), ok_bind, need_bind hhint,
        cstring_of_at hname htext]
      rfl

lemma peThunk_end {is64 : Bool} {state : ℕ × List PeSymbol}
    (h : ThunksAhead data row is64 state []) :
    peThunk data [row] is64 state = .ok (.done state.2) := by
  have hat : At data state.1 (leBytes (thunkWidth is64) 0) := h.1
  have hfits := hat.stop_le
  have hword := hat.leNat_eq (Nat.pow_pos (by decide))
  rw [length_leBytes] at hfits
  rw [peThunk_of_word hfits hword, if_pos rfl]

/-- The thunk loop comes to its end exactly when there is room for the zero word, too. -/
lemma thunks_read_iff (hwhole : Whole data row) {is64 : Bool} {cursor : ℕ}
    {symbols : List StoredSymbol} (h : ThunksAhead data row is64 (cursor, []) symbols)
    {found : List PeSymbol} :
    forever (.executable "PE import symbol count exceeds limit") (peThunk data [row] is64)
        maxImports (cursor, []) = .ok found ↔
      symbols.length < maxImports ∧ found = symbols.map StoredSymbol.reported := by
  rw [forever_items_iff (G := fun _ => True) (I := ThunksAhead data row is64)
    (r := fun state => state.2) (fun h _ => peThunk_symbol hwhole h)
    (fun _ h => absurd trivial h) peThunk_end h, foldl_passOver, List.nil_append]
  exact and_iff_right fun _ _ => trivial

/-- Where the descriptor loop stands. -/
def DescriptorsAhead (data : Bytes) (row : PeSection) (is64 : Bool) (state : ℕ × List PeImport)
    (libraries : List StoredImport) : Prop :=
  At data state.1 (libraries.flatMap StoredImport.descriptor ++ List.replicate 20 0) ∧
    ∀ library ∈ libraries, library.InFile data row is64

lemma length_descriptor (library : StoredImport) : library.descriptor.length = 20 := by
  simp [StoredImport.descriptor]

/-- A pass over the descriptors, by the words it reads. -/
lemma peDescriptor_of_words {sections : List PeSection} {is64 : Bool}
    {state : ℕ × List PeImport} {original nameRva thunk : ℕ}
    (hfits : state.1 + 20 ≤ data.length) (horiginal : le32 data state.1 = original)
    (hname : le32 data (state.1 + 12) = nameRva) (hthunk : le32 data (state.1 + 16) = thunk) :
    peDescriptor data sections is64 state =
      if original = 0 ∧ nameRva = 0 ∧ thunk = 0 then .ok (.done state.2)
      else do
        let library ← cstring data (← rvaOffset data sections nameRva)
        let thunkCursor ← rvaOffset data sections (if original = 0 then thunk else original)
        let symbols ← forever (.executable "PE import symbol count exceeds limit")
          (peThunk data sections is64) maxImports (thunkCursor, [])
        return .again (state.1 + 20, state.2 ++ [{ library := library, symbols := symbols }]) := by
  subst horiginal hname hthunk
  obtain ⟨cursor, imports⟩ := state
  unfold peDescriptor
  dsimp only
  rw [need_bind hfits, unpackFrom_bind hfits]
  rfl

lemma peDescriptor_library (hwhole : Whole data row) {is64 : Bool} {state : ℕ × List PeImport}
    {library : StoredImport} {rest : List StoredImport}
    (h : DescriptorsAhead data row is64 state (library :: rest)) :
    peDescriptor data [row] is64 state = (do
      let symbols ← forever (.executable "PE import symbol count exceeds limit")
        (peThunk data [row] is64) maxImports (row.rawOffset +
          ((if library.original = 0 then library.thunk else library.original) - row.rva), [])
      return .again (state.1 + 20, state.2 ++
        [{ library := PyStr.decodeUtf8 library.library, symbols := symbols }])) := by
  obtain ⟨hat, hlibraries⟩ := h
  obtain ⟨hlibrary, -⟩ := List.forall_mem_cons.1 hlibraries
  rw [List.flatMap_cons, List.append_assoc] at hat
  have hfits := hat.left.stop_le
  rw [length_descriptor] at hfits
  have hentry {index : ℕ} (hindex : index < 5) := hat.left.entry (length_leBytes 4) hindex
  have horiginal : le32 data state.1 = library.original :=
    (hentry (by decide : 0 < 5)).le32_eq hlibrary.original
  have hname : le32 data (state.1 + 12) = library.nameRva :=
    (hentry (by decide : 3 < 5)).le32_eq hlibrary.nameRva.2
  have hthunk : le32 data (state.1 + 16) = library.thunk :=
    (hentry (by decide : 4 < 5)).le32_eq hlibrary.thunk
  have hpos := hlibrary.nameRva.1
  rw [peDescriptor_of_words hfits horiginal hname hthunk, if_neg (by omega),
    hlibrary.name.rvaOffset_eq hwhole (by simp), ok_bind,
    cstring_of_at hlibrary.name.2.2 hlibrary.text, ok_bind,
    hlibrary.table.rvaOffset_eq hwhole (by cases is64 <;> simp [StoredImport.thunks, thunkWidth]),
    ok_bind]

lemma peDescriptor_end {is64 : Bool} {state : ℕ × List PeImport}
    (h : DescriptorsAhead data row is64 state []) :
    peDescriptor data [row] is64 state = .ok (.done state.2) := by
  have hat : At data state.1 (List.replicate 20 0) := h.1
  have hfits := hat.stop_le
  have hwords : At data state.1 ((List.replicate 5 0).flatMap (leBytes 4)) := hat
  have hzero {index : ℕ} (hindex : index < 5) : le32 data (state.1 + index * 4) = 0 := by
    have hword := hwords.entry (length_leBytes 4) (by simpa using hindex)
    rw [List.getElem_replicate] at hword
    exact hword.le32_eq (by decide)
  rw [List.length_replicate] at hfits
  rw [peDescriptor_of_words hfits (hzero (by decide : 0 < 5)) (hzero (by decide : 3 < 5))
    (hzero (by decide : 4 < 5)), if_pos ⟨rfl, rfl, rfl⟩]

/-- The libraries are read to the end exactly when there is room for the zero words and the null
descriptor, too. -/
lemma descriptors_read_iff (hwhole : Whole data row) {is64 : Bool} {cursor : ℕ}
    {libraries : List StoredImport} (h : DescriptorsAhead data row is64 (cursor, []) libraries)
    {found : List PeImport} :
    forever (.executable "PE import descriptor count exceeds limit") (peDescriptor data [row] is64)
        maxImports (cursor, []) = .ok found ↔
      (∀ library ∈ libraries, library.symbols.length < maxImports) ∧
        libraries.length < maxImports ∧ found = libraries.map StoredImport.reported := by
  rw [forever_items_iff (G := fun library => library.symbols.length < maxImports)
    (I := DescriptorsAhead data row is64) (r := fun state => state.2)
    (f := passOver 20 StoredImport.reported) ?_ ?_ peDescriptor_end h, foldl_passOver,
    List.nil_append]
  · intro state library rest h hshort
    have hat := h.1
    rw [List.flatMap_cons, List.append_assoc] at hat
    obtain ⟨hlibrary, hrest⟩ := List.forall_mem_cons.1 h.2
    have hright := hat.right
    rw [length_descriptor] at hright
    refine ⟨?_, hright, hrest⟩
    rw [peDescriptor_library hwhole h,
      (thunks_read_iff hwhole ⟨hlibrary.table.2.2, hlibrary.symbols⟩).2 ⟨hshort, rfl⟩]
    rfl
  · intro state library rest h hlong
    obtain ⟨hlibrary, -⟩ := List.forall_mem_cons.1 h.2
    rw [peDescriptor_library hwhole h]
    cases hthunks : forever (.executable "PE import symbol count exceeds limit")
        (peThunk data [row] is64) maxImports (row.rawOffset +
          ((if library.original = 0 then library.thunk else library.original) - row.rva), []) with
    | error e => exact ⟨e, rfl⟩
    | ok found =>
        have hread := (thunks_read_iff hwhole ⟨hlibrary.table.2.2, hlibrary.symbols⟩).1 hthunks
        exact absurd hread.1 hlong

/-! ## Exports -/

/-- The words of the export directory. -/
lemma words_of_directory {place : ℕ} {rva : ℕ} {exports : StoredExports}
    (h : exports.InFile data row rva) (hat : At data place exports.directory) :
    le32 data (place + 16) = exports.ordinalBase ∧ le32 data (place + 20) = exports.functionCount ∧
      le32 data (place + 24) = exports.names.length ∧
      le32 data (place + 32) = exports.namesRva ∧ le32 data (place + 36) = exports.ordinalsRva := by
  have hentry {index : ℕ} (hindex : index < 10) := hat.entry (length_leBytes 4) hindex
  exact ⟨(hentry (by decide : 4 < 10)).le32_eq h.ordinalBase,
    (hentry (by decide : 5 < 10)).le32_eq h.functionCount,
    (hentry (by decide : 6 < 10)).le32_eq h.count, (hentry (by decide : 8 < 10)).le32_eq h.namesRva,
    (hentry (by decide : 9 < 10)).le32_eq h.ordinalsRva⟩

/-- The exported names, from where their tables stand. -/
lemma mapM_peExport_eq_ok (hwhole : Whole data row) {rva : ℕ} {exports : StoredExports}
    (h : exports.InFile data row rva) :
    (List.range exports.names.length).mapM (peExport data [row] exports.ordinalBase
        (row.rawOffset + (exports.namesRva - row.rva))
        (row.rawOffset + (exports.ordinalsRva - row.rva))) = .ok exports.reported := by
  rw [mapM_eq_ok_iff, List.forall₂_iff_get]
  refine ⟨by simp [StoredExports.reported], fun index hindex _ => ?_⟩
  rw [List.length_range] at hindex
  have hne : exports.names ≠ [] := List.ne_nil_of_length_pos (by omega)
  have hentry := h.names _ (List.getElem_mem hindex)
  have hname := (h.nameTable hne).2.2.entry (fun _ => length_leBytes 4 _) hindex
  have hordinal := (h.ordinalTable hne).2.2.entry (fun _ => length_leBytes 2 _) hindex
  have hfits := hname.stop_le
  have hfits' := hordinal.stop_le
  rw [length_leBytes] at hfits hfits'
  rw [List.get_eq_getElem, List.getElem_range, List.get_eq_getElem]
  unfold peExport
  rw [need_bind hfits, need_bind hfits', unpackFrom_bind hfits, unpackFrom_bind hfits',
    hname.le32_eq hentry.rva, hordinal.le16_eq hentry.index,
    hentry.name.rvaOffset_eq hwhole (by simp), ok_bind,
    cstring_of_at hentry.name.2.2 hentry.text]
  simp [StoredExports.reported]

/-- The export directory is read exactly when its counts are in bounds and the addresses of its
tables lie in the section. -/
lemma directory_read_iff (hwhole : Whole data row) {directories : List PeDirectory} {rva : ℕ}
    (hrva : (directories[0]?.map (·.rva)).getD 0 = rva) (hpos : rva ≠ 0) {exports : StoredExports}
    (h : exports.InFile data row rva) {found : List PeExport} :
    peExports data [row] directories = .ok found ↔
      (exports.functionCount ≤ maxSymbols ∧ exports.names.length ≤ maxSymbols ∧
        Mapped row exports.namesRva ∧ Mapped row exports.ordinalsRva) ∧
        found = exports.reported := by
  have hat := h.directory.2.2
  have hfits := hat.stop_le
  have hlength : exports.directory.length = 40 := by simp [StoredExports.directory]
  rw [hlength] at hfits
  obtain ⟨hbase, hfunctions, hcount, hnames, hordinals⟩ := words_of_directory h hat
  unfold peExports
  rw [hrva]
  dsimp only
  rw [if_neg hpos, h.directory.rvaOffset_eq hwhole (by omega), ok_bind, need_bind hfits,
    unpackFrom_bind (by omega), hbase, hfunctions, hcount, hnames, hordinals]
  dsimp only
  constructor
  · intro hread
    split at hread
    · cases hread
    · next hcounts =>
        obtain ⟨namesAt, hnamesAt, hread⟩ := bind_eq_ok.1 hread
        obtain ⟨ordinalsAt, hordinalsAt, hread⟩ := bind_eq_ok.1 hread
        obtain ⟨hmapped, rfl⟩ := (rvaOffset_eq_ok_iff hwhole).1 hnamesAt
        obtain ⟨hmapped', rfl⟩ := (rvaOffset_eq_ok_iff hwhole).1 hordinalsAt
        rw [mapM_peExport_eq_ok hwhole h] at hread
        exact ⟨⟨by omega, by omega, hmapped, hmapped'⟩, (Except.ok.inj hread).symm⟩
  · rintro ⟨⟨hfunctions, hcount, hmapped, hmapped'⟩, rfl⟩
    rw [if_neg (by omega), (rvaOffset_eq_ok_iff hwhole).2 ⟨hmapped, rfl⟩, ok_bind,
      (rvaOffset_eq_ok_iff hwhole).2 ⟨hmapped', rfl⟩, ok_bind, mapM_peExport_eq_ok hwhole h]

end

/-! ## The tables of a file -/

/-- The imports and exports that are reported. -/
def ParsedExecutable.tables (parsed : ParsedExecutable) :
    Option (List PeImport × List PeExport) :=
  match parsed.observations with
  | .pe _ _ _ _ imports exports _ => some (imports, exports)
  | _ => none

lemma tables_peReport (data : Bytes) (offset : ℕ) (imports : List PeImport)
    (exports : List PeExport) :
    (peReport data offset imports exports).tables = some (imports, exports) := rfl

/-- There is room in the loops for every library and symbol and for what ends the lists, the counts
of the export directory are in bounds, and the addresses of its tables lie in the section even if
they are not used. -/
structure TablesInReach (row : PeSection) (imports : List StoredImport)
    (exports : Option StoredExports) : Prop where
  libraries : imports.length < maxImports
  symbols : ∀ library ∈ imports, library.symbols.length < maxImports
  counts : ∀ directory ∈ exports,
    directory.functionCount ≤ maxSymbols ∧ directory.names.length ≤ maxSymbols
  addresses : ∀ directory ∈ exports,
    Mapped row directory.namesRva ∧ Mapped row directory.ordinalsRva

section

variable {data : Bytes} {row : PeSection} {imports : List StoredImport}
  {exports : Option StoredExports}

lemma TableFile.whole (h : TableFile data row imports exports) : Whole data row :=
  ⟨h.sizes, h.readable.raw row (h.sections ▸ List.mem_singleton_self row)⟩

lemma TableFile.parse_eq (h : TableFile data row imports exports) :
    parseExecutable data = some <$> parsePe data (le32 data 60) := by
  have hlength := h.enters.header
  rw [parseExecutable_mz h.magic (by omega), parseMz_of_enters h.enters]

/-- The imports are read exactly when there is room for them. -/
lemma TableFile.imports_read_iff (h : TableFile data row imports exports) {found : List PeImport} :
    peImports data [row] (peIs64 data (le32 data 60)) (peDirectories data (le32 data 60)) =
        .ok found ↔
      (∀ library ∈ imports, library.symbols.length < maxImports) ∧
        imports.length < maxImports ∧ found = imports.map StoredImport.reported := by
  unfold peImports
  change (if directoryRva data 1 = 0 then _ else _) = _ ↔ _
  by_cases hrva : directoryRva data 1 = 0
  · rw [if_pos hrva, h.noImports hrva]
    simp [maxImports, eq_comm]
  · have hholds := h.descriptors hrva
    rw [if_neg hrva]
    change (rvaOffset data [row] (directoryRva data 1) >>= _) = _ ↔ _
    rw [hholds.rvaOffset_eq h.whole (by simp), ok_bind,
      descriptors_read_iff h.whole ⟨hholds.2.2, h.imports⟩]

/-- The exports are read exactly when the counts are in bounds and the addresses in reach. -/
lemma TableFile.exports_read_iff (h : TableFile data row imports exports) {found : List PeExport} :
    peExports data [row] (peDirectories data (le32 data 60)) = .ok found ↔
      (∀ directory ∈ exports, directory.functionCount ≤ maxSymbols ∧
        directory.names.length ≤ maxSymbols ∧ Mapped row directory.namesRva ∧
        Mapped row directory.ordinalsRva) ∧
        found = (exports.map StoredExports.reported).getD [] := by
  cases exports with
  | none =>
      unfold peExports
      change (if directoryRva data 0 = 0 then _ else _) = _ ↔ _
      rw [if_pos (h.noExports.2 rfl)]
      simp [eq_comm]
  | some directory =>
      have hpos : directoryRva data 0 ≠ 0 := fun hzero => by
        cases h.noExports.1 hzero
      rw [directory_read_iff h.whole rfl hpos (h.exports directory rfl)]
      simp

/-- A file whose tables are in reach is reported with them. -/
lemma TableFile.parse_of_reach (h : TableFile data row imports exports)
    (hreach : TablesInReach row imports exports) :
    parseExecutable data = .ok (some (peReport data (le32 data 60)
      (imports.map StoredImport.reported) ((exports.map StoredExports.reported).getD []))) := by
  have himports := h.imports_read_iff.2 ⟨hreach.symbols, hreach.libraries, rfl⟩
  have hexports := h.exports_read_iff.2 ⟨fun directory hdirectory =>
    ⟨(hreach.counts directory hdirectory).1, (hreach.counts directory hdirectory).2,
      hreach.addresses directory hdirectory⟩, rfl⟩
  rw [← h.sections] at himports hexports
  rw [h.parse_eq, parsePe_eq_ok_iff.2 ⟨h.readable, _, _, himports, hexports, rfl⟩]
  rfl

/-- The reader reports the imports and the exports of a file exactly when its tables are in
reach. -/
theorem tables_read_back_iff (h : TableFile data row imports exports) :
    (∃ parsed, parseExecutable data = .ok (some parsed) ∧
        parsed.tables = some (imports.map StoredImport.reported,
          (exports.map StoredExports.reported).getD [])) ↔
      TablesInReach row imports exports := by
  constructor
  · rintro ⟨parsed, hparsed, htables⟩
    rw [h.parse_eq] at hparsed
    cases hread : parsePe data (le32 data 60) with
    | error e =>
        rw [hread] at hparsed
        cases hparsed
    | ok parsed' =>
        obtain ⟨-, imports', exports', himports, hexports, -⟩ := parsePe_eq_ok_iff.1 hread
        rw [h.sections] at himports hexports
        obtain ⟨hsymbols, hlibraries, -⟩ := h.imports_read_iff.1 himports
        obtain ⟨hreach, -⟩ := h.exports_read_iff.1 hexports
        exact ⟨hlibraries, hsymbols, fun directory hdirectory =>
          ⟨(hreach directory hdirectory).1, (hreach directory hdirectory).2.1⟩,
          fun directory hdirectory => (hreach directory hdirectory).2.2⟩
  · exact fun hreach => ⟨_, h.parse_of_reach hreach, tables_peReport _ _ _ _⟩

end

/-! ## Two files -/

instance (data : Bytes) (row : PeSection) (rva : ℕ) (piece : Bytes) :
    Decidable (Holds data row rva piece) := inferInstanceAs (Decidable (_ ∧ _ ∧ _))

/-- A PE32 file with an export and an import directory, and one section at 0x1000. -/
def oneSection (exportRva importRva : ℕ) (body : Bytes) : Bytes :=
  peFile (leBytes 4 exportRva ++ leBytes 4 0 ++ leBytes 4 importRva ++ leBytes 4 0)
    (List.replicate 8 0 ++ leBytes 4 body.length ++ leBytes 4 0x1000 ++ leBytes 4 body.length ++
      leBytes 4 240 ++ List.replicate 16 0) body

/-- The section of such a file. -/
def sectionOf (body : Bytes) : PeSection :=
  { index := 0
    name := []
    rva := 0x1000
    virtualSize := body.length
    rawOffset := 240
    rawSize := body.length
    characteristics := 0 }

/-- A library `k` with a symbol `f` and the ordinal 7. -/
def smallImport : StoredImport :=
  { original := 0x1028
    timestamp := 0
    forwarder := 0
    nameRva := 0x1038
    thunk := 0
    library := ascii "k"
    symbols := [.name 0x1034 0 (ascii "f"), .ordinal 7] }

/-- An export directory with one function, called `g`. -/
def smallExports : StoredExports :=
  { characteristics := 0
    timestamp := 0
    version := 0
    nameRva := 0x1038
    ordinalBase := 5
    functionCount := 1
    functionsRva := 0x103A
    namesRva := 0x1062
    ordinalsRva := 0x1066
    names := [{ rva := 0x1068, text := ascii "g", index := 0 }] }

def smallTables : Bytes :=
  smallImport.descriptor ++ List.replicate 20 0 ++ smallImport.thunks false ++ leBytes 2 0 ++
    ascii "f" ++ [0] ++ ascii "k" ++ [0] ++ smallExports.directory ++ leBytes 4 0x1068 ++
    leBytes 2 0 ++ ascii "g" ++ [0]

lemma smallTables_file :
    TableFile (oneSection 0x103A 0x1000 smallTables) (sectionOf smallTables) [smallImport]
      (some smallExports) where
  magic := by decide +kernel
  enters := ⟨by decide +kernel, by decide +kernel, by decide +kernel, by decide +kernel,
    by decide +kernel⟩
  readable := ⟨⟨by decide +kernel, by decide +kernel, by decide +kernel, by decide +kernel,
    by decide +kernel⟩, by decide +kernel, by decide +kernel, by decide +kernel⟩
  sections := by decide +kernel
  sizes := rfl
  noImports := fun h => absurd h (by decide +kernel)
  descriptors := fun _ => by decide +kernel
  imports := by
    intro library hlibrary
    rw [List.mem_singleton.1 hlibrary]
    refine ⟨by decide, by decide, by decide, ⟨by decide, by decide⟩, by decide +kernel,
      by decide +kernel, fun symbol hsymbol => ?_⟩
    simp only [smallImport, List.mem_cons, List.not_mem_nil, or_false] at hsymbol
    rcases hsymbol with rfl | rfl
    · exact ⟨by decide, by decide, ⟨by decide, by decide⟩, by decide +kernel⟩
    · exact (by decide : 7 < 2 ^ 16)
  noExports := iff_of_false (by decide +kernel) (by simp)
  exports := by
    rintro directory ⟨⟩
    refine ⟨by decide +kernel, by decide, by decide, by decide, by decide, by decide,
      fun _ => by decide +kernel, fun _ => by decide +kernel, fun entry hentry => ?_⟩
    rw [List.mem_singleton.1 hentry]
    exact ⟨by decide, by decide, ⟨by decide, by decide⟩, by decide +kernel⟩

lemma smallTables_inReach :
    TablesInReach (sectionOf smallTables) [smallImport] (some smallExports) :=
  ⟨by decide, by decide, by decide, by
    rintro directory ⟨⟩
    exact ⟨⟨by decide, by decide +kernel⟩, ⟨by decide, by decide +kernel⟩⟩⟩

theorem smallTables_read_back :
    (∃ parsed, parseExecutable (oneSection 0x103A 0x1000 smallTables) = .ok (some parsed) ∧
        parsed.tables = some ([smallImport].map StoredImport.reported,
          ((some smallExports).map StoredExports.reported).getD [])) ↔
      TablesInReach (sectionOf smallTables) [smallImport] (some smallExports) :=
  tables_read_back_iff smallTables_file

/-- An export directory with one function and no names, with no tables for them. -/
def ordinalOnly : StoredExports :=
  { characteristics := 0
    timestamp := 0
    version := 0
    nameRva := 0x1000
    ordinalBase := 1
    functionCount := 1
    functionsRva := 0x1028
    namesRva := 0
    ordinalsRva := 0
    names := [] }

def ordinalTables : Bytes := ordinalOnly.directory ++ leBytes 4 0x1000

lemma ordinalOnly_file :
    TableFile (oneSection 0x1000 0 ordinalTables) (sectionOf ordinalTables) []
      (some ordinalOnly) where
  magic := by decide +kernel
  enters := ⟨by decide +kernel, by decide +kernel, by decide +kernel, by decide +kernel,
    by decide +kernel⟩
  readable := ⟨⟨by decide +kernel, by decide +kernel, by decide +kernel, by decide +kernel,
    by decide +kernel⟩, by decide +kernel, by decide +kernel, by decide +kernel⟩
  sections := by decide +kernel
  sizes := rfl
  noImports := fun _ => rfl
  descriptors := fun h => absurd (by decide +kernel) h
  imports := by simp
  noExports := iff_of_false (by decide +kernel) (by simp)
  exports := by
    rintro directory ⟨⟩
    exact ⟨by decide +kernel, by decide, by decide, by decide, by decide, by decide,
      fun h => absurd rfl h, fun h => absurd rfl h, by simp [ordinalOnly]⟩

/-- A file that exports by ordinal only is refused. -/
theorem ordinal_only_exports_refused :
    ¬∀ data row imports exports, TableFile data row imports exports →
      imports.length < maxImports → (∀ library ∈ imports, library.symbols.length < maxImports) →
      ∃ parsed, parseExecutable data = .ok (some parsed) ∧
        parsed.tables = some (imports.map StoredImport.reported,
          (exports.map StoredExports.reported).getD []) := by
  intro h
  obtain ⟨parsed, hparsed, -⟩ := h _ _ _ _ ordinalOnly_file (by decide) (by simp)
  have hrefused : (parseExecutable (oneSection 0x1000 0 ordinalTables)).isOk = false := by
    decide +kernel
  rw [hparsed] at hrefused
  cases hrefused

end Executable

end AVBox
