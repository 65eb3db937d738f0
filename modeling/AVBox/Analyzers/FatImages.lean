import AVBox.Analyzers.FatRows

/-!
# What the FAT reader returns

The entries of an image against the live rows of its volume (`enumerates_rows_iff`), and the
content of an entry against the allocation table (`contents_follow_table_iff`).
-/

namespace AVBox

namespace Fat

open Binary Fallible

/-! ## Where the rows are -/

section Places

variable {data : Bytes} {vol : Volume}

lemma mem_rows {content : Bytes} {item : Bytes × ℕ} (h : item ∈ rows content) :
    item.2 < content.length / 32 ∧
      item.1 = slice content (32 * item.2) (32 * item.2 + 32) := by
  obtain ⟨raw, index⟩ := item
  obtain ⟨-, hlen, hraw⟩ := List.mem_zipIdx h
  simp only [Nat.zero_add, Nat.sub_zero, List.length_map, List.length_range, List.getElem_map,
    List.getElem_range] at hlen hraw
  exact ⟨hlen, hraw⟩

end Places

/-! ## The entries of an image -/

section Entries

variable {data : Bytes} {vol : Volume}

lemma Enumerated.places {found : List Found} (h : Enumerated data vol found) (p : ℕ) :
    p ∈ found.map (fun f => place data vol f.row) ↔
      ∃ row, ReadFile data vol row ∧ place data vol row = p := by
  have hplaces : found.map (fun f => place data vol f.row) =
      (found.map fun f => f.row.bare).map (place data vol) := by
    rw [List.map_map]
    rfl
  rw [hplaces, List.mem_map]
  exact exists_congr fun row => and_congr_left fun _ => h.read row

/-- The boot sector and the FAT of a volume of four sectors with one cluster, which ends its
chain. -/
def oneCluster : Bytes :=
  List.replicate 11 0 ++ [0, 2, 1, 1, 0, 1, 16, 0, 4, 0, 0xF8, 1, 0] ++ List.replicate 486 0 ++
    [0x55, 0xAA] ++ [0xF8, 0xFF, 0xFF, 0xFF, 0x0F] ++ List.replicate 507 0

/-- The row of the file `A` of one byte. -/
def oneByteRow (start : UInt8) : Bytes :=
  0x41 :: List.replicate 10 0x20 ++ [0x20] ++ List.replicate 14 0 ++ [start, 0, 1, 0, 0, 0]

/-- A volume of five sectors with two clusters, and a file of one byte in each. -/
def twoFiles : Bytes :=
  List.replicate 11 0 ++ [0, 2, 1, 1, 0, 1, 16, 0, 5, 0, 0xF8, 1, 0] ++ List.replicate 486 0 ++
    [0x55, 0xAA] ++ [0xF8, 0xFF, 0xFF, 0xFF, 0xFF, 0xFF] ++ List.replicate 506 0 ++
    oneByteRow 2 ++ 0x42 :: (oneByteRow 3).drop 1 ++ List.replicate 448 0 ++
    List.replicate 1024 0x58

/-- The volume of five sectors with two clusters. -/
def twoClusterVolume : Volume := ⟨512, 1, 1, 1, 16, 5, 1, 0⟩

/-- The volume of four sectors with one cluster. -/
def oneClusterVolume : Volume := ⟨512, 1, 1, 1, 16, 4, 1, 0⟩

/-- There is a chain for the file of the row. -/
def HasContent (data : Bytes) (vol : Volume) (row : Row) : Prop :=
  ∃ content, Content data vol row.start row.size content

/-- The walk does not read a file from the row. -/
def Unread (data : Bytes) (vol : Volume) (row : Row) : Prop :=
  ∀ row', ReadFile data vol row' → row'.nameless ≠ row

/-- The entries of an image have the content that the allocation table gives them, and a live file
row that has none makes the parser raise `DiskImageError`. -/
def ContentsFollowTable (frames : ℕ) (data : Bytes) : Prop :=
  ∀ vol, volume data = some vol →
    (∀ found, enumerate data vol frames = .ok found →
      parse frames data = .ok (some (image data vol found)) ∧
        ∀ f ∈ found, Content data vol f.row.start f.row.size f.entry.data) ∧
    ((∃ row, LiveFile data vol row ∧ ¬HasContent data vol row) →
      ∃ e, parse frames data = .error e ∧ IsDiskImage e)

lemma parse_ok {frames : ℕ} {found : List Found} (hvol : volume data = some vol)
    (h : enumerate data vol frames = .ok found) :
    parse frames data = .ok (some (image data vol found)) := by
  simp only [parse, hvol, h]
  rfl

lemma parse_error {frames : ℕ} {e : Exc} (hvol : volume data = some vol)
    (h : enumerate data vol frames = .error e) : parse frames data = .error e := by
  simp only [parse, hvol, h]
  rfl

/-- The chain that was read is the one of the table when its first cluster lies in the data
area. -/
lemma content_of_chain (hvol : vol.Coherent data.length) {start size : ℕ} {content : Bytes}
    (hchain : chain data vol start (some size) = .ok content) :
    Content data vol start size content ↔ (size ≠ 0 → start < vol.clusters + 2) := by
  by_cases hsize : size = 0
  · subst hsize
    obtain rfl := chain_zero_eq_ok hchain
    exact iff_of_true (by rw [Content, if_pos rfl]) fun h => absurd rfl h
  · rw [content_iff hvol hsize]
    exact ⟨fun h _ => h.1, fun h => ⟨h hsize, hchain⟩⟩

/-- The contents that were read are right exactly when no row has its first cluster behind the data
area. -/
lemma Enumerated.contents_iff {found : List Found} (h : Enumerated data vol found)
    (hvol : vol.Coherent data.length) :
    (∀ f ∈ found, Content data vol f.row.start f.row.size f.entry.data) ↔
      ∀ row, ReadFile data vol row → row.size ≠ 0 → row.start < vol.clusters + 2 := by
  constructor
  · intro hcontent row hrow
    obtain ⟨f, hf, rfl⟩ := List.mem_map.1 ((h.read row).2 hrow)
    exact (content_of_chain hvol (h.content f hf)).1 (hcontent f hf)
  · intro hstart f hf
    exact (content_of_chain hvol (h.content f hf)).2
      (hstart f.row.bare ((h.read _).1 (List.mem_map.2 ⟨f, hf, rfl⟩)))

/-- The contents are right exactly when no row that is read has its first cluster behind the data
area, and the live file rows that are not read have a chain too. -/
theorem contents_follow_table_iff (frames : ℕ) (data : Bytes) :
    ContentsFollowTable frames data ↔ ∀ vol, volume data = some vol →
      (Shallow data vol frames → AllReadable data vol →
        (∀ row, ReadFile data vol row → row.size ≠ 0 → row.start < vol.clusters + 2) ∧
          ∀ row, LiveFile data vol row → Unread data vol row → HasContent data vol row) ∧
      (¬Shallow data vol frames → ∀ row, LiveFile data vol row → HasContent data vol row) := by
  refine forall_congr' fun vol => forall_congr' fun hvol => ?_
  have hcoherent := coherent_of_volume hvol
  rcases @enumerate_cases data vol frames with
    ⟨found, hfound, hall, hshallow, henum⟩ | ⟨e, he, hkind, hall, hshallow⟩ | ⟨he, hshallow⟩
  · have hparse := parse_ok hvol hfound
    have hread := henum.contents_iff hcoherent
    constructor
    · rintro ⟨hcontent, hlive⟩
      refine ⟨fun _ _ => ⟨hread.1 (hcontent found hfound).2, fun row hrow _ => ?_⟩,
        fun h => absurd hshallow h⟩
      by_contra hnone
      obtain ⟨e, he, -⟩ := hlive ⟨row, hrow, hnone⟩
      cases hparse.symm.trans he
    · rintro ⟨hcond, -⟩
      obtain ⟨hstart, hunread⟩ := hcond hshallow hall
      refine ⟨fun found' hfound' => ?_, ?_⟩
      · obtain rfl := Except.ok.inj (hfound.symm.trans hfound')
        exact ⟨hparse, hread.2 hstart⟩
      · rintro ⟨row, hrow, hnone⟩
        by_cases hreadRow : Unread data vol row
        · exact absurd (hunread row hrow hreadRow) hnone
        · obtain ⟨row', hreadRow', rfl⟩ : ∃ row', ReadFile data vol row' ∧ row'.nameless = row := by
            simpa [Unread] using hreadRow
          obtain ⟨f, hf, rfl⟩ := List.mem_map.1 ((henum.read row').2 hreadRow')
          exact absurd ⟨_, hread.2 hstart f hf⟩ hnone
  · have hparse := parse_error hvol he
    refine iff_of_true ⟨fun found hfound => ?_, fun _ => ⟨e, hparse, hkind⟩⟩
      ⟨fun _ h => absurd h hall, fun h => absurd hshallow h⟩
    cases he.symm.trans hfound
  · have hparse := parse_error hvol he
    constructor
    · rintro ⟨-, hlive⟩
      refine ⟨fun h => absurd h hshallow, fun _ row hrow => ?_⟩
      by_contra hnone
      obtain ⟨e, he', hkind⟩ := hlive ⟨row, hrow, hnone⟩
      obtain rfl := Except.error.inj (hparse.symm.trans he')
      cases hkind
    · rintro ⟨-, hlive⟩
      refine ⟨fun found hfound => ?_, ?_⟩
      · cases he.symm.trans hfound
      · rintro ⟨row, hrow, hnone⟩
        exact absurd (hlive hshallow row hrow) hnone

/-- A volume whose only file starts behind its last cluster, in an image that is one sector longer
than the volume. -/
def startsBehindVolume : Bytes :=
  oneCluster ++ oneByteRow 3 ++ List.replicate 480 0 ++ List.replicate 1024 0x58

/-- The entry has the byte behind the volume. -/
theorem starts_behind_volume : ¬ContentsFollowTable 1000 startsBehindVolume := by
  intro h
  have hvol : volume startsBehindVolume = some oneClusterVolume := by decide +kernel
  have hfound : enumerate startsBehindVolume oneClusterVolume 1000 =
      .ok [⟨⟨none, 0, oneByteRow 3, [], [0x41]⟩, ⟨[0x41], [0x58], 0⟩⟩] := by decide +kernel
  obtain ⟨hcontent, -⟩ := h _ hvol
  have hfirst := (hcontent _ hfound).2 _ List.mem_cons_self
  rw [content_iff (coherent_of_volume hvol) (by decide +kernel)] at hfirst
  exact absurd hfirst.1 (by decide +kernel)

end Entries

end Fat

end AVBox
