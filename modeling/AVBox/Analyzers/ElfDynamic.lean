import AVBox.Analyzers.ExecutableErrors

/-!
# The dynamic section of an ELF file

The entries of a dynamic section up to the first `DT_NULL` are its contents (`beforeNull`), and what
they say about the dependencies of the file is `dependenciesOf`.  The reader goes on to the last
slot of the section, so the dependencies it reports are those of all entries.

`dynamic_stops_iff` says when that is the same: the slots behind the terminator must name nothing
that the entries before it do not, and name it inside the string table.
-/

namespace AVBox

open Binary Fallible

namespace Executable

/-! ## What the entries say -/

/-- The dependencies that are reported. -/
structure Dependencies where
  needed : List PyStr
  soname : Option PyStr
  rpath : Option PyStr
  runpath : Option PyStr
  deriving DecidableEq

def ElfDynamic.dependencies (dynamic : ElfDynamic) : Dependencies :=
  { needed := dynamic.needed
    soname := dynamic.soname
    rpath := dynamic.rpath
    runpath := dynamic.runpath }

/-- The entries of a dynamic section, as tags and values. -/
def dynamicEntries (fmt : ElfFormat) (data : Bytes) (raw : RawSection) : List (ℕ × ℕ) :=
  (List.range (raw.size / raw.entsize)).map fun index =>
    elfEntryFields fmt data (raw.offset + index * raw.entsize)

/-- The entries before the first `DT_NULL`. -/
def beforeNull (entries : List (ℕ × ℕ)) : List (ℕ × ℕ) := entries.takeWhile fun entry => entry.1 ≠ 0

/-- The first `DT_NULL`, if there is one, and the slots behind it. -/
def fromNull (entries : List (ℕ × ℕ)) : List (ℕ × ℕ) := entries.dropWhile fun entry => entry.1 ≠ 0

/-- The strings that the entries name lie in the table. -/
def InTable (strings : Bytes) (entries : List (ℕ × ℕ)) : Prop :=
  ∀ entry ∈ entries, entry.1 ∈ [1, 14, 15, 29] → entry.2 < strings.length

/-- The strings of the entries with a tag. -/
def textsOf (strings : Bytes) (tag : ℕ) (entries : List (ℕ × ℕ)) : List PyStr :=
  (entries.filter fun entry => entry.1 = tag).map fun entry => tableText strings entry.2

/-- What the entries say about the dependencies of the file.  Of several names the last counts. -/
def dependenciesOf (strings : Bytes) (entries : List (ℕ × ℕ)) : Dependencies :=
  { needed := textsOf strings 1 entries
    soname := (textsOf strings 14 entries).getLast?
    rpath := (textsOf strings 15 entries).getLast?
    runpath := (textsOf strings 29 entries).getLast? }

section Entries

variable {strings : Bytes}

lemma textsOf_append (tag : ℕ) (first rest : List (ℕ × ℕ)) :
    textsOf strings tag (first ++ rest) =
      textsOf strings tag first ++ textsOf strings tag rest := by
  rw [textsOf, List.filter_append, List.map_append]
  rfl

lemma inTable_append {first rest : List (ℕ × ℕ)} :
    InTable strings (first ++ rest) ↔ InTable strings first ∧ InTable strings rest :=
  List.forall_mem_append

/-- The last of two lists is the last of the first when the second is empty or ends alike. -/
lemma getLast?_append_eq_left_iff {α : Type} {first rest : List α} :
    (first ++ rest).getLast? = first.getLast? ↔ rest = [] ∨ rest.getLast? = first.getLast? := by
  rw [List.getLast?_append]
  cases hrest : rest.getLast? with
  | none => simp [List.getLast?_eq_none_iff.1 hrest]
  | some text =>
      have hne : rest ≠ [] := by
        rintro rfl
        cases hrest
      simp [hne]

/-- The slots behind the terminator name nothing that is not named before it. -/
structure Silent (strings : Bytes) (before after : List (ℕ × ℕ)) : Prop where
  needed : textsOf strings 1 after = []
  names : ∀ tag ∈ [14, 15, 29], textsOf strings tag after = [] ∨
    (textsOf strings tag after).getLast? = (textsOf strings tag before).getLast?

lemma dependenciesOf_append_iff {before after : List (ℕ × ℕ)} :
    dependenciesOf strings (before ++ after) = dependenciesOf strings before ↔
      Silent strings before after := by
  simp only [dependenciesOf, Dependencies.mk.injEq, textsOf_append, List.append_right_eq_self,
    getLast?_append_eq_left_iff]
  constructor
  · rintro ⟨hneeded, hsoname, hrpath, hrunpath⟩
    exact ⟨hneeded, by simp [hsoname, hrpath, hrunpath]⟩
  · rintro ⟨hneeded, hnames⟩
    exact ⟨hneeded, hnames 14 (by decide), hnames 15 (by decide), hnames 29 (by decide)⟩

end Entries

/-! ## What the loop reads -/

section Loop

variable {fmt : ElfFormat} {data : Bytes} {raw table : RawSection}

/-- What is known after some more entries. -/
def ElfDynamic.add (strings : Bytes) (known : ElfDynamic) (entries : List (ℕ × ℕ)) : ElfDynamic :=
  { known with
    needed := known.needed ++ textsOf strings 1 entries
    soname := (textsOf strings 14 entries).getLast?.or known.soname
    rpath := (textsOf strings 15 entries).getLast?.or known.rpath
    runpath := (textsOf strings 29 entries).getLast?.or known.runpath }

variable {strings : Bytes}

lemma add_nil (known : ElfDynamic) : known.add strings [] = known := by
  simp [ElfDynamic.add, textsOf]

lemma add_cons (known : ElfDynamic) (entry : ℕ × ℕ) (entries : List (ℕ × ℕ)) :
    (known.add strings [entry]).add strings entries = known.add strings (entry :: entries) := by
  have happend (tag : ℕ) := @textsOf_append strings tag [entry] entries
  simp only [List.singleton_append] at happend
  simp only [ElfDynamic.add, happend, List.append_assoc, List.getLast?_append, Option.or_assoc]

lemma textsOf_singleton (tag : ℕ) (entry : ℕ × ℕ) :
    textsOf strings tag [entry] = if entry.1 = tag then [tableText strings entry.2] else [] := by
  unfold textsOf
  rw [List.filter_singleton]
  split <;> simp_all

lemma elfEntry_eq_ok_iff {known known' : ElfDynamic} {index : ℕ}
    (hfits : EntryFits fmt data raw index) :
    elfEntry fmt data raw strings known index = .ok known' ↔
      InTable strings [elfEntryFields fmt data (raw.offset + index * raw.entsize)] ∧
        known' =
          known.add strings [elfEntryFields fmt data (raw.offset + index * raw.entsize)] := by
  unfold elfEntry
  rw [unpackFrom_bind hfits]
  generalize elfEntryFields fmt data (raw.offset + index * raw.entsize) = entry
  obtain ⟨tag, value⟩ := entry
  dsimp only
  simp only [InTable, List.forall_mem_singleton, ElfDynamic.add, textsOf_singleton]
  by_cases htag : tag ∈ [1, 14, 15, 29]
  · by_cases hvalue : value < strings.length
    · rw [if_neg (not_not.2 htag), if_neg (by omega)]
      simp only [List.mem_cons, List.not_mem_nil, or_false] at htag
      rcases htag with rfl | rfl | rfl | rfl
      all_goals
        simp [hvalue, eq_comm, pure, Except.pure]
    · rw [if_neg (not_not.2 htag), if_pos (by omega)]
      refine iff_of_false (fun h => ?_) fun h => hvalue (h.1 htag)
      cases h
  · rw [if_pos htag]
    simp only [List.mem_cons, List.not_mem_nil, or_false, not_or] at htag
    simp [htag, pure, Except.pure]
    exact eq_comm

/-- The loop reads all entries, wherever the terminator is. -/
lemma foldlM_elfEntry_eq_ok_iff {known known' : ElfDynamic} {indices : List ℕ}
    (hfits : ∀ index ∈ indices, EntryFits fmt data raw index) :
    indices.foldlM (elfEntry fmt data raw strings) known = .ok known' ↔
      InTable strings (indices.map fun index =>
          elfEntryFields fmt data (raw.offset + index * raw.entsize)) ∧
        known' = known.add strings (indices.map fun index =>
          elfEntryFields fmt data (raw.offset + index * raw.entsize)) := by
  induction indices generalizing known with
  | nil =>
      rw [List.map_nil, add_nil]
      exact ⟨fun h => ⟨by simp [InTable], (Except.ok.inj h).symm⟩, fun h => h.2 ▸ rfl⟩
  | cons index indices ih =>
      obtain ⟨hfirst, hrest⟩ := List.forall_mem_cons.1 hfits
      rw [List.foldlM_cons, bind_eq_ok, List.map_cons, ← add_cons, ← List.singleton_append,
        inTable_append]
      constructor
      · rintro ⟨next, hnext, h⟩
        obtain ⟨hin, rfl⟩ := (elfEntry_eq_ok_iff hfirst).1 hnext
        obtain ⟨hin', rfl⟩ := (ih hrest).1 h
        exact ⟨⟨hin, hin'⟩, rfl⟩
      · rintro ⟨⟨hin, hin'⟩, rfl⟩
        exact ⟨_, (elfEntry_eq_ok_iff hfirst).2 ⟨hin, rfl⟩, (ih hrest).2 ⟨hin', rfl⟩⟩

/-! ## The sections -/

/-- The symbols of all sections. -/
def symbolsOf (rows : List RawSection) : ℕ := (rows.map RawSection.symbols).sum

variable {rows : List RawSection}

/-- Sections that are not dynamic leave the dependencies as they are. -/
lemma foldlM_elfLook_other (names : Bytes) {others : List RawSection}
    (hfile : ∀ raw ∈ others, raw.InFile data) (hother : ∀ raw ∈ others, raw.stype ≠ 6)
    (known : ElfDynamic) :
    ∃ buildId, others.foldlM (elfLook fmt data names rows) known = .ok
      { known with symbolCount := known.symbolCount + symbolsOf others, buildId := buildId } := by
  induction others generalizing known with
  | nil => exact ⟨known.buildId, rfl⟩
  | cons raw others ih =>
      obtain ⟨hraw, hfile⟩ := List.forall_mem_cons.1 hfile
      obtain ⟨htype, hother⟩ := List.forall_mem_cons.1 hother
      obtain ⟨buildId, hlook⟩ := @elfLook_eq fmt data raw rows names hraw known
      have hnone : dynamicStrings rows raw = none := if_pos (.inl htype)
      rw [elfEntries, hnone] at hlook
      obtain ⟨buildId', hrest⟩ := ih hfile hother
        { known with symbolCount := known.symbolCount + raw.symbols, buildId := buildId }
      have hsum : known.symbolCount + raw.symbols + symbolsOf others =
          known.symbolCount + symbolsOf (raw :: others) := by
        rw [symbolsOf, symbolsOf, List.map_cons, List.sum_cons, ← Nat.add_assoc]
      rw [hsum] at hrest
      exact ⟨buildId', by rw [List.foldlM_cons, hlook]; exact hrest⟩

/-- A dynamic section among others: its entries decide. -/
lemma foldlM_elfLook_split (names : Bytes) {first rest : List RawSection}
    (hfile : ∀ row ∈ first ++ raw :: rest, row.InFile data)
    (hfirst : ∀ row ∈ first, row.stype ≠ 6) (hrest : ∀ row ∈ rest, row.stype ≠ 6)
    (known : ElfDynamic) :
    ∃ (buildId : Option String) (more : ElfDynamic → Option String),
      (first ++ raw :: rest).foldlM (elfLook fmt data names rows) known =
        elfEntries fmt data rows raw
            { known with
              symbolCount := known.symbolCount + symbolsOf first + raw.symbols,
              buildId := buildId } >>=
          fun known' => .ok
            { known' with
              symbolCount := known'.symbolCount + symbolsOf rest, buildId := more known' } := by
  obtain ⟨hfile, hfileRest⟩ := List.forall_mem_append.1 hfile
  obtain ⟨hraw, hfileRest⟩ := List.forall_mem_cons.1 hfileRest
  obtain ⟨before, hbefore⟩ := @foldlM_elfLook_other fmt data rows names first hfile hfirst known
  obtain ⟨buildId, hlook⟩ := @elfLook_eq fmt data raw rows names hraw
    { known with symbolCount := known.symbolCount + symbolsOf first, buildId := before }
  choose more hmore using @foldlM_elfLook_other fmt data rows names rest hfileRest hrest
  refine ⟨buildId, more, ?_⟩
  rw [List.foldlM_append, hbefore, ok_bind, List.foldlM_cons, hlook]
  exact congrArg (_ >>= ·) (funext hmore)

/-- The slots of a dynamic section that is read, and what they come to. -/
lemma elfEntries_eq_ok_iff (hstrings : dynamicStrings rows raw = some table)
    (hfits : ∀ index ∈ List.range (raw.size / raw.entsize), EntryFits fmt data raw index)
    {known known' : ElfDynamic} :
    elfEntries fmt data rows raw known = .ok known' ↔
      raw.size / raw.entsize ≤ maxSymbols ∧
        InTable (table.content data) (dynamicEntries fmt data raw) ∧
        known' = known.add (table.content data) (dynamicEntries fmt data raw) := by
  unfold elfEntries
  rw [hstrings]
  dsimp only
  split
  · next hcount =>
      refine iff_of_false (fun h => ?_) fun h => by omega
      cases h
  · next hcount =>
      rw [foldlM_elfEntry_eq_ok_iff hfits, and_iff_right (not_lt.1 hcount)]
      rfl

/-- The entries of a section of standard entry size lie in the file. -/
lemma entryFits_of_standard (hfile : raw.InFile data) (htype : raw.stype = 6)
    (hsize : raw.entsize = fmt.dynamicSize) {index : ℕ}
    (hindex : index ∈ List.range (raw.size / raw.entsize)) : EntryFits fmt data raw index := by
  have hpos : 0 < fmt.dynamicSize := by
    unfold ElfFormat.dynamicSize
    split <;> omega
  have hlt := List.mem_range.1 hindex
  have hfull : (index + 1) * raw.entsize ≤ raw.size :=
    (Nat.mul_le_mul_right _ hlt).trans (Nat.div_mul_le_self _ _)
  rw [Nat.succ_mul] at hfull
  have hin := hfile (by omega) (by omega)
  unfold EntryFits
  omega

end Loop

/-! ## The file -/

def ParsedExecutable.dependencies (parsed : ParsedExecutable) : Option Dependencies :=
  match parsed.observations with
  | .elf _ _ _ _ dynamic => some dynamic.dependencies
  | _ => none

lemma dependencies_elfReport (fmt : ElfFormat) (data : Bytes) (dynamic : ElfDynamic) :
    (elfReport fmt data dynamic).dependencies = some dynamic.dependencies := rfl

/-- An ELF file whose headers, tables, segments and sections are in order, with one dynamic section,
which has entries of the standard size and is linked to a string table. -/
structure DynamicFile (data : Bytes) (raw table : RawSection) : Prop where
  enters : EntersElf data
  readable : ElfReadable (elfFormat data) data
  one : (elfRows (elfFormat data) data).filter (fun row => row.stype = 6) = [raw]
  entsize : raw.entsize = (elfFormat data).dynamicSize
  link : (elfRows (elfFormat data) data)[raw.link]? = some table
  strings : table.stype = 3

section File

variable (data : Bytes) (raw table : RawSection)

/-- The entries before the first `DT_NULL` of the section. -/
def entriesBefore : List (ℕ × ℕ) := beforeNull (dynamicEntries (elfFormat data) data raw)

/-- The first `DT_NULL` of the section and the slots behind it. -/
def slotsBehind : List (ℕ × ℕ) := fromNull (dynamicEntries (elfFormat data) data raw)

/-- The dependencies that are reported, and whether the file is accepted, are a matter of the
entries before the first `DT_NULL`. -/
def StopsAtNull : Prop :=
  (InTable (table.content data) (entriesBefore data raw) →
    ∃ parsed, parseExecutable data = .ok (some parsed) ∧
      parsed.dependencies = some (dependenciesOf (table.content data) (entriesBefore data raw))) ∧
  (¬InTable (table.content data) (entriesBefore data raw) →
    ∀ parsed, parseExecutable data ≠ .ok (some parsed))

/-- The entries before the terminator are in order, there are not too many symbols and slots, and
the slots behind the terminator name nothing else, and nothing outside the table. -/
structure QuietBehind : Prop where
  symbols : symbolsOf (elfRows (elfFormat data) data) ≤ maxSymbols
  slots : raw.size / raw.entsize ≤ maxSymbols
  inTable : InTable (table.content data) (slotsBehind data raw)
  silent : Silent (table.content data) (entriesBefore data raw) (slotsBehind data raw)

variable {data raw table}

lemma DynamicFile.parse_eq (h : DynamicFile data raw table) :
    parseExecutable data = some <$> parseElfTables (elfFormat data) data := by
  rw [parseExecutable, if_pos h.enters.magic, parseElf_of_enters h.enters]

/-- The dynamic section among the others. -/
lemma DynamicFile.split (h : DynamicFile data raw table) : ∃ first rest,
    elfRows (elfFormat data) data = first ++ raw :: rest ∧ (∀ row ∈ first, row.stype ≠ 6) ∧
      raw.stype = 6 ∧ ∀ row ∈ rest, row.stype ≠ 6 := by
  obtain ⟨first, rest, hrows, hfirst, hraw, hrest⟩ := List.filter_eq_cons_iff.1 h.one
  refine ⟨first, rest, hrows, fun row hrow => ?_, by simpa using hraw, fun row hrow => ?_⟩
  · simpa using hfirst row hrow
  · simpa using List.filter_eq_nil_iff.1 hrest row hrow

/-- The loop over the sections comes to its end exactly when the dynamic section is read to its last
slot, and then to what all slots say. -/
lemma DynamicFile.passes (h : DynamicFile data raw table) :
    (∀ dynamic, elfPasses (elfFormat data) data = .ok dynamic →
      (raw.size / raw.entsize ≤ maxSymbols ∧
        InTable (table.content data) (dynamicEntries (elfFormat data) data raw)) ∧
      dynamic.symbolCount = symbolsOf (elfRows (elfFormat data) data) ∧
      dynamic.dependencies =
        dependenciesOf (table.content data) (dynamicEntries (elfFormat data) data raw)) ∧
    (raw.size / raw.entsize ≤ maxSymbols →
      InTable (table.content data) (dynamicEntries (elfFormat data) data raw) →
      ∃ dynamic, elfPasses (elfFormat data) data = .ok dynamic) := by
  obtain ⟨first, rest, hrows, hfirst, htype, hrest⟩ := h.split
  have hfile := h.readable.sections
  have hin : raw.InFile data := hfile raw (by rw [hrows]; simp)
  have hstrings : dynamicStrings (elfRows (elfFormat data) data) raw = some table := by
    have hsize : raw.entsize ≠ 0 := by
      rw [h.entsize, ElfFormat.dynamicSize]
      split <;> decide
    rw [dynamicStrings, if_neg (by simp [htype, hsize]), h.link]
    exact Option.filter_eq_some_iff.2 ⟨rfl, by simp [h.strings]⟩
  have hentries {known known' : ElfDynamic} :
      elfEntries (elfFormat data) data (elfRows (elfFormat data) data) raw known = .ok known' ↔
        raw.size / raw.entsize ≤ maxSymbols ∧
          InTable (table.content data) (dynamicEntries (elfFormat data) data raw) ∧
          known' = known.add (table.content data) (dynamicEntries (elfFormat data) data raw) :=
    elfEntries_eq_ok_iff hstrings fun index hindex =>
      entryFits_of_standard hin htype h.entsize hindex
  obtain ⟨buildId, more, hloop⟩ := @foldlM_elfLook_split (elfFormat data) data raw
    (elfRows (elfFormat data) data)
    (elfStrings data (elfTables (elfFormat data) data) (elfRows (elfFormat data) data)) first rest
    (hrows ▸ hfile) hfirst hrest noDynamic
  rw [← hrows] at hloop
  have hpasses : elfPasses (elfFormat data) data = _ := hloop
  rw [hpasses]
  constructor
  · intro dynamic hdynamic
    obtain ⟨known', hread, hmore⟩ := bind_eq_ok.1 hdynamic
    obtain ⟨hslots, hin, rfl⟩ := hentries.1 hread
    obtain rfl := Except.ok.inj hmore
    refine ⟨⟨hslots, hin⟩, ?_, ?_⟩
    · simp [ElfDynamic.add, noDynamic, symbolsOf, hrows, Nat.add_assoc]
    · simp [ElfDynamic.dependencies, ElfDynamic.add, noDynamic, dependenciesOf]
  · intro hslots hin
    exact ⟨_, bind_eq_ok.2 ⟨_, hentries.2 ⟨hslots, hin, rfl⟩, rfl⟩⟩

/-- A file is accepted only if the dynamic section is read to its last slot and there are not too
many symbols, and then the dependencies are those of all slots. -/
lemma DynamicFile.of_accepted (h : DynamicFile data raw table) {parsed : ParsedExecutable}
    (hparsed : parseExecutable data = .ok (some parsed)) :
    symbolsOf (elfRows (elfFormat data) data) ≤ maxSymbols ∧
      raw.size / raw.entsize ≤ maxSymbols ∧
      InTable (table.content data) (dynamicEntries (elfFormat data) data raw) ∧
      parsed.dependencies = some
        (dependenciesOf (table.content data) (dynamicEntries (elfFormat data) data raw)) := by
  rw [h.parse_eq, parseElfTables_of_readable h.readable] at hparsed
  cases hpasses : elfPasses (elfFormat data) data with
  | error e =>
      rw [hpasses] at hparsed
      cases hparsed
  | ok dynamic =>
      obtain ⟨⟨hslots, hin⟩, hcount, hdependencies⟩ := h.passes.1 dynamic hpasses
      rw [hpasses, ok_bind] at hparsed
      split at hparsed
      · cases hparsed
      · next hsymbols =>
          cases hparsed
          exact ⟨by omega, hslots, hin, by rw [dependencies_elfReport, hdependencies]⟩

lemma DynamicFile.accepted (h : DynamicFile data raw table)
    (hsymbols : symbolsOf (elfRows (elfFormat data) data) ≤ maxSymbols)
    (hslots : raw.size / raw.entsize ≤ maxSymbols)
    (hin : InTable (table.content data) (dynamicEntries (elfFormat data) data raw)) :
    ∃ parsed, parseExecutable data = .ok (some parsed) ∧ parsed.dependencies = some
      (dependenciesOf (table.content data) (dynamicEntries (elfFormat data) data raw)) := by
  obtain ⟨dynamic, hpasses⟩ := h.passes.2 hslots hin
  obtain ⟨-, hcount, hdependencies⟩ := h.passes.1 dynamic hpasses
  rw [h.parse_eq, parseElfTables_of_readable h.readable, hpasses, ok_bind, if_neg (by omega)]
  exact ⟨_, rfl, by rw [dependencies_elfReport, hdependencies]⟩

/-- The dependencies are those of the entries before the first `DT_NULL` exactly when the slots
behind it are quiet, or an entry before it is not in order. -/
theorem dynamic_stops_iff (h : DynamicFile data raw table) :
    StopsAtNull data raw table ↔
      (InTable (table.content data) (entriesBefore data raw) → QuietBehind data raw table) := by
  have hsplit : dynamicEntries (elfFormat data) data raw =
      entriesBefore data raw ++ slotsBehind data raw := List.takeWhile_append_dropWhile.symm
  constructor
  · rintro ⟨hstops, -⟩ hin
    obtain ⟨parsed, hparsed, hbefore⟩ := hstops hin
    obtain ⟨hsymbols, hslots, hall, hsame⟩ := h.of_accepted hparsed
    rw [hsplit] at hall hsame
    refine ⟨hsymbols, hslots, (inTable_append.1 hall).2, dependenciesOf_append_iff.1 ?_⟩
    exact Option.some.inj (hsame.symm.trans hbefore)
  · intro hquiet
    refine ⟨fun hin => ?_, fun hin parsed hparsed => hin ?_⟩
    · obtain ⟨hsymbols, hslots, hbehind, hsilent⟩ := hquiet hin
      have haccepted := h.accepted hsymbols hslots (hsplit ▸ inTable_append.2 ⟨hin, hbehind⟩)
      rwa [hsplit, dependenciesOf_append_iff.2 hsilent] at haccepted
    · obtain ⟨-, -, hall, -⟩ := h.of_accepted hparsed
      rw [hsplit] at hall
      exact (inTable_append.1 hall).1

end File

/-! ## Two files -/

/-- An ELF32 file with a dynamic section and its string table. -/
def smallElf (slots : List ℕ) (strings : Bytes) : Bytes :=
  elfMagic ++ [1, 1] ++ List.replicate 10 0 ++ leBytes 2 3 ++ leBytes 2 3 ++
    [1, 0, 0, 52, 0].flatMap (leBytes 4) ++ [52, 0, 0, 40, 2, 0].flatMap (leBytes 2) ++
    [0, 6, 0, 0, 132, slots.length * 4, 1, 0, 0, 8].flatMap (leBytes 4) ++
    [0, 3, 0, 0, 132 + slots.length * 4, strings.length, 0, 0, 0, 0].flatMap (leBytes 4) ++
    slots.flatMap (leBytes 4) ++ strings

/-- Its dynamic section. -/
def smallDynamic (slots : List ℕ) : RawSection :=
  { name := 0, stype := 6, flags := 0, offset := 132, size := slots.length * 4, link := 1,
    entsize := 8 }

/-- Its string table. -/
def smallStrings (slots : List ℕ) (strings : Bytes) : RawSection :=
  { name := 0, stype := 3, flags := 0, offset := 132 + slots.length * 4, size := strings.length,
    link := 0, entsize := 0 }

/-- One library and the terminator. -/
def oneNeeded : List ℕ := [1, 1, 0, 0]

/-- The same, with another library behind the terminator. -/
def staleNeeded : List ℕ := [1, 1, 0, 0, 1, 3]

/-- Two names. -/
def twoNames : Bytes := [0, 97, 0, 98, 0]

lemma smallElf_file {slots : List ℕ} (h : slots = oneNeeded ∨ slots = staleNeeded) :
    DynamicFile (smallElf slots twoNames) (smallDynamic slots) (smallStrings slots twoNames) := by
  rcases h with rfl | rfl
  all_goals
    exact ⟨⟨by decide +kernel, by decide +kernel, by decide +kernel, by decide +kernel⟩,
      ⟨by decide +kernel, by decide +kernel, by decide +kernel, by decide +kernel,
        by decide +kernel, by decide +kernel, by decide +kernel, by decide +kernel, by
          unfold RawSection.InFile
          decide +kernel⟩, by decide +kernel, by decide +kernel, by decide +kernel, rfl⟩

theorem oneNeeded_stops :
    StopsAtNull (smallElf oneNeeded twoNames) (smallDynamic oneNeeded)
        (smallStrings oneNeeded twoNames) ↔
      (InTable ((smallStrings oneNeeded twoNames).content (smallElf oneNeeded twoNames))
          (entriesBefore (smallElf oneNeeded twoNames) (smallDynamic oneNeeded)) →
        QuietBehind (smallElf oneNeeded twoNames) (smallDynamic oneNeeded)
          (smallStrings oneNeeded twoNames)) :=
  dynamic_stops_iff (smallElf_file (.inl rfl))

/-- A library behind the terminator is reported. -/
theorem stale_library_reported :
    ¬∀ data raw table, DynamicFile data raw table → StopsAtNull data raw table := by
  intro h
  have hfile := smallElf_file (.inr rfl)
  have hin : InTable ((smallStrings staleNeeded twoNames).content (smallElf staleNeeded twoNames))
      (entriesBefore (smallElf staleNeeded twoNames) (smallDynamic staleNeeded)) := by
    unfold InTable
    decide +kernel
  obtain ⟨parsed, hparsed, hbefore⟩ := (h _ _ _ hfile).1 hin
  obtain ⟨-, -, -, hall⟩ := hfile.of_accepted hparsed
  have hdiffer : dependenciesOf
        ((smallStrings staleNeeded twoNames).content (smallElf staleNeeded twoNames))
        (entriesBefore (smallElf staleNeeded twoNames) (smallDynamic staleNeeded)) ≠
      dependenciesOf ((smallStrings staleNeeded twoNames).content (smallElf staleNeeded twoNames))
        (dynamicEntries (elfFormat (smallElf staleNeeded twoNames)) (smallElf staleNeeded twoNames)
          (smallDynamic staleNeeded)) := by
    decide +kernel
  exact hdiffer (Option.some.inj (hbefore.symm.trans hall))

end Executable

end AVBox
