import AVBox.Analyzers.FatChains

/-!
# Directory rows of a FAT volume

Which rows a volume holds, and which of them the walk of `_parse_fat` turns into entries.

* A row is *live* when it stands before the end mark of the root directory, or of one that live
  subdirectory rows other than `.` and `..` lead to, and its own bytes say that it is neither erased
  nor part of a long name nor a label.
* A row is *read* when the walk comes to it and does not pass over its name.

The walk looks at the live rows of a directory, whatever the long names in it
(`map_nameless_rowsOf`), and a finished walk has turned every read file row into one entry
(`enumerate_perm`).
-/

namespace AVBox

namespace Fat

open Binary Fallible Walk

/-! ## Rows and directories -/

section Directories

variable (data : Bytes) (vol : Volume)

/-- The content of the root, or of the directory with a start cluster. -/
def directoryContent : Option ℕ → Except Exc Bytes
  | none => rootContent data vol
  | some start => chain data vol start none

/-- The rows of a directory that the walk looks at, none if it cannot be read. -/
def rowsOf (directory : Option ℕ) : List Row :=
  match directoryContent data vol directory with
  | .ok content => listing directory [] content
  | .error _ => []

/-- The rows of a directory up to the end mark, without those that are erased, part of a long name
or a label. -/
def liveRows (content : Bytes) : List (Bytes × ℕ) :=
  ((rows content).takeWhile fun item => u8 item.1 0 ≠ 0).filter fun item =>
    decide (u8 item.1 0 ≠ 0xE5) && decide (u8 item.1 11 ≠ 0x0F) && !(u8 item.1 11).testBit 3

/-- The live rows of the root, or of the directory with a start cluster, by their bytes alone: the
names that the walk gives them are left empty. -/
def liveRowsOf (directory : Option ℕ) : List Row :=
  match directoryContent data vol directory with
  | .ok content => (liveRows content).map fun (raw, index) => ⟨directory, index, raw, [], []⟩
  | .error _ => []

/-- The directories that live rows lead to. -/
inductive LiveDirectory : Option ℕ → Prop
  | root : LiveDirectory none
  | sub {directory : Option ℕ} {row : Row} :
      LiveDirectory directory → row ∈ liveRowsOf data vol directory → row.isDirectory →
      shortName row.raw ∉ PyStr.dots → LiveDirectory (some row.start)

/-- The directories that the walk enters. -/
inductive ReadDirectory : Option ℕ → Prop
  | root : ReadDirectory none
  | sub {directory : Option ℕ} {row : Row} :
      ReadDirectory directory → row ∈ rowsOf data vol directory → row.isDirectory →
      row.passedOver = false → ReadDirectory (some row.start)

/-- A live row that is not a directory. -/
structure LiveFile (row : Row) : Prop where
  reached : LiveDirectory data vol row.directory
  present : row ∈ liveRowsOf data vol row.directory
  file : row.isDirectory = false

/-- A row that the walk reads a file from. -/
structure ReadFile (row : Row) : Prop where
  reached : ReadDirectory data vol row.directory
  present : row ∈ rowsOf data vol row.directory
  file : row.isDirectory = false
  named : row.passedOver = false

/-- The clusters that follow one another in the table, at most `fuel` of them. -/
def clustersFrom : ℕ → ℕ → List ℕ
  | 0, _ => []
  | fuel + 1, cluster =>
      cluster :: match nextCluster data vol cluster with
        | .ok (some next) => clustersFrom fuel next
        | _ => []

/-- Where in the file the rows of a directory that starts in a cluster are. -/
def placeInClusters (start index : ℕ) : ℕ :=
  let clusters := clustersFrom data vol (vol.clusters + 1) start
  clusterStart vol (clusters.getD (32 * index / vol.clusterSize) 0) + 32 * index % vol.clusterSize

/-- Where in the file a row is. -/
def place (row : Row) : ℕ :=
  match row.directory with
  | some start => placeInClusters data vol start row.index
  | none =>
      if vol.variant = .fat32 then placeInClusters data vol vol.rootCluster row.index
      else (vol.reserved + vol.fats * vol.fatSize) * vol.bps + 32 * row.index

end Directories

/-! ## Rows and their names -/

/-- A row without the path of its directory. -/
def Row.bare (row : Row) : Row := { row with head := [] }

section Bare

variable (row : Row)

@[simp] lemma Row.bare_directory : row.bare.directory = row.directory := rfl

@[simp] lemma Row.bare_isDirectory : row.bare.isDirectory = row.isDirectory := rfl

@[simp] lemma Row.bare_passedOver : row.bare.passedOver = row.passedOver := rfl

@[simp] lemma Row.bare_start : row.bare.start = row.start := rfl

@[simp] lemma Row.bare_size : row.bare.size = row.size := rfl

end Bare

lemma map_bare_readRows (directory : Option ℕ) (head : PyStr) (longParts : List PyStr)
    (rest : List (Bytes × ℕ)) :
    (readRows directory head longParts rest).map Row.bare =
      readRows directory [] longParts rest := by
  induction rest generalizing longParts with
  | nil => rfl
  | cons item rest ih =>
      obtain ⟨raw, index⟩ := item
      simp only [readRows]
      split_ifs <;> simp only [List.map_nil, List.map_cons, ih, Row.bare]

/-- Only the path of an entry depends on how its directory was reached. -/
lemma map_bare_listing (directory : Option ℕ) (head : PyStr) (content : Bytes) :
    (listing directory head content).map Row.bare = listing directory [] content :=
  map_bare_readRows directory head [] (rows content)

lemma directory_of_mem_readRows {directory : Option ℕ} {head : PyStr} {longParts : List PyStr}
    {rest : List (Bytes × ℕ)} {row : Row} (h : row ∈ readRows directory head longParts rest) :
    row.directory = directory := by
  induction rest generalizing longParts with
  | nil => exact absurd h List.not_mem_nil
  | cons item rest ih =>
      obtain ⟨raw, index⟩ := item
      simp only [readRows] at h
      split_ifs at h
      · exact absurd h List.not_mem_nil
      · exact ih h
      · exact ih h
      · exact ih h
      all_goals
        rcases List.mem_cons.1 h with rfl | h
        · rfl
        · exact ih h

/-- A row by its bytes and its place. -/
def Row.nameless (row : Row) : Row := { row with head := [], name := [] }

/-- Long names do not decide which rows a directory has. -/
theorem readRows_raw (directory : Option ℕ) (head : PyStr) (longParts : List PyStr)
    (rest : List (Bytes × ℕ)) :
    (readRows directory head longParts rest).map (fun row => (row.raw, row.index)) =
      (rest.takeWhile fun item => u8 item.1 0 ≠ 0).filter fun item =>
        decide (u8 item.1 0 ≠ 0xE5) && decide (u8 item.1 11 ≠ 0x0F) &&
          !(u8 item.1 11).testBit 3 := by
  induction rest generalizing longParts with
  | nil => rfl
  | cons item rest ih =>
      obtain ⟨raw, index⟩ := item
      simp only [readRows]
      by_cases hend : u8 raw 0 = 0
      · simp [hend]
      by_cases herased : u8 raw 0 = 0xE5
      · simp [herased, ih]
      by_cases hlong : u8 raw 11 = 0x0F
      · simp [hend, herased, hlong, ih]
      cases hlabel : (u8 raw 11).testBit 3 <;> simp [hend, herased, hlong, hlabel, ih]

/-- The walk looks at the live rows of a directory. -/
theorem map_nameless_rowsOf (data : Bytes) (vol : Volume) (directory : Option ℕ) :
    (rowsOf data vol directory).map Row.nameless = liveRowsOf data vol directory := by
  unfold rowsOf liveRowsOf
  cases directoryContent data vol directory with
  | error exc => rfl
  | ok content =>
      have hraw : (listing directory [] content).map (fun row => (row.raw, row.index)) =
          liveRows content := readRows_raw directory [] [] (rows content)
      change (listing directory [] content).map Row.nameless = (liveRows content).map _
      rw [← hraw, List.map_map]
      refine List.map_congr_left fun row hrow => ?_
      obtain rfl := directory_of_mem_readRows hrow
      rfl

/-! ## What a walk goes through -/

/-- The files among some rows, without the paths. -/
def files (items : List Row) : List Row :=
  (items.filter fun row => !row.passedOver && !row.isDirectory).map Row.bare

lemma files_cons (row : Row) (items : List Row) :
    files (row :: items) = files [row] ++ files items := by
  unfold files
  rw [← List.map_append, ← List.filter_append]
  rfl

lemma mem_files {items : List Row} {row : Row} :
    row ∈ files items ↔
      ∃ item ∈ items, item.passedOver = false ∧ item.isDirectory = false ∧ item.bare = row := by
  simp only [files, List.mem_map, List.mem_filter, Bool.and_eq_true, Bool.not_eq_true']
  constructor
  · rintro ⟨item, ⟨hmem, hnamed, hfile⟩, rfl⟩
    exact ⟨item, hmem, hnamed, hfile, rfl⟩
  · rintro ⟨item, hmem, hnamed, hfile, rfl⟩
    exact ⟨item, ⟨hmem, hnamed, hfile⟩, rfl⟩

lemma files_map_bare (items : List Row) : files (items.map Row.bare) = files items := by
  unfold files
  rw [List.filter_map, List.map_map]
  rfl

section Looks

variable {data : Bytes} {vol : Volume}

lemma rowsOf_of_content {directory : Option ℕ} {content : Bytes}
    (h : directoryContent data vol directory = .ok content) (head : PyStr) :
    rowsOf data vol directory = (listing directory head content).map Row.bare := by
  rw [rowsOf, h, map_bare_listing]

/-- What a successful look at a row has found. -/
inductive Looked (data : Bytes) (vol : Volume) (state : WalkState) (row : Row) :
    Turn WalkState Row → Prop
  | passed : row.passedOver = true → Looked data vol state row (.stay state)
  | again : row.passedOver = false → row.isDirectory = true → row.start ∈ state.visitedDirs →
      Looked data vol state row (.stay state)
  | entered {content : Bytes} : row.passedOver = false → row.isDirectory = true →
      row.start ∉ state.visitedDirs → chain data vol row.start none = .ok content →
      Looked data vol state row
        (.enter { state with visitedDirs := row.start :: state.visitedDirs }
          (listing (some row.start) row.logical content))
  | file {content : Bytes} : row.passedOver = false → row.isDirectory = false →
      chain data vol row.start (some row.size) = .ok content →
      Looked data vol state row
        (.stay { state with
          found := state.found ++ [⟨row, ⟨row.logical, content, state.found.length⟩⟩] })

lemma looked_of_look {state : WalkState} {row : Row} {turn : Turn WalkState Row}
    (h : look data vol state row = .ok turn) : Looked data vol state row turn := by
  unfold look at h
  cases hpassed : row.passedOver with
  | true =>
      rw [hpassed, if_pos rfl] at h
      cases h
      exact .passed hpassed
  | false =>
      rw [hpassed, if_neg Bool.false_ne_true] at h
      cases hdir : row.isDirectory with
      | true =>
          rw [hdir, if_pos rfl] at h
          split at h
          · next hvisited =>
              cases h
              exact .again hpassed hdir hvisited
          · next hfresh =>
              obtain ⟨content, hcontent, hturn⟩ := bind_eq_ok.1 h
              cases hturn
              exact .entered hpassed hdir hfresh hcontent
      | false =>
          rw [hdir, if_neg Bool.false_ne_true] at h
          obtain ⟨content, hcontent, hturn⟩ := bind_eq_ok.1 h
          cases hturn
          exact .file hpassed hdir hcontent

/-- A walk over some rows has turned the files among them, and the files of the directories it has
entered, into entries. -/
structure Explored (data : Bytes) (vol : Volume) (state final : WalkState) (items : List Row)
    (dirs : List ℕ) : Prop where
  visited : final.visitedDirs = dirs ++ state.visitedDirs
  distinct : dirs.Nodup
  fresh : ∀ d ∈ dirs, d ∉ state.visitedDirs
  found : (final.found.map fun f => f.row.bare).Perm
    (state.found.map (fun f => f.row.bare) ++ files items ++
      dirs.flatMap fun d => files (rowsOf data vol (some d)))
  entered : ∀ row ∈ items, row.passedOver = false → row.isDirectory = true →
    row.start ∈ final.visitedDirs
  closed : ∀ d ∈ dirs, ∀ row ∈ rowsOf data vol (some d), row.passedOver = false →
    row.isDirectory = true → row.start ∈ final.visitedDirs

lemma Explored.nil (state : WalkState) : Explored data vol state state [] [] where
  visited := rfl
  distinct := .nil
  fresh := fun _ h => absurd h List.not_mem_nil
  found := by simp [files]
  entered := fun _ h => absurd h List.not_mem_nil
  closed := fun _ h => absurd h List.not_mem_nil

lemma Explored.mono {state final : WalkState} {items : List Row} {dirs : List ℕ}
    (h : Explored data vol state final items dirs) {d : ℕ} (hd : d ∈ state.visitedDirs) :
    d ∈ final.visitedDirs := by
  rw [h.visited]
  exact List.mem_append_right _ hd

/-- A row that opens nothing, and then the rest. -/
lemma Explored.stay {state state' final : WalkState} {row : Row} {rest : List Row} {dirs : List ℕ}
    (hlook : Looked data vol state row (.stay state'))
    (h : Explored data vol state' final rest dirs) :
    Explored data vol state final (row :: rest) dirs := by
  cases hlook with
  | passed hpassed =>
      refine ⟨h.visited, h.distinct, h.fresh, ?_, ?_, h.closed⟩
      · rw [files_cons, show files [row] = [] by simp [files, hpassed], List.nil_append]
        exact h.found
      · intro item hitem hnamed hdir
        rcases List.mem_cons.1 hitem with rfl | hitem
        · rw [hpassed] at hnamed
          cases hnamed
        · exact h.entered item hitem hnamed hdir
  | again hnamed hdir hvisited =>
      refine ⟨h.visited, h.distinct, h.fresh, ?_, ?_, h.closed⟩
      · rw [files_cons, show files [row] = [] by simp [files, hdir], List.nil_append]
        exact h.found
      · intro item hitem hnamed' hdir'
        rcases List.mem_cons.1 hitem with rfl | hitem
        · exact h.mono hvisited
        · exact h.entered item hitem hnamed' hdir'
  | file hnamed hfile hcontent =>
      refine ⟨h.visited, h.distinct, h.fresh, ?_, ?_, h.closed⟩
      · rw [files_cons, show files [row] = [row.bare] by simp [files, hnamed, hfile]]
        refine h.found.trans (.of_eq ?_)
        simp only [List.map_append, List.map_cons, List.map_nil, List.append_assoc]
      · intro item hitem hnamed' hdir'
        rcases List.mem_cons.1 hitem with rfl | hitem
        · rw [hfile] at hdir'
          cases hdir'
        · exact h.entered item hitem hnamed' hdir'

/-- A row that opens a directory, and then the rest. -/
lemma Explored.enter {state state' inside final : WalkState} {row : Row} {inner rest : List Row}
    {dirs dirs' : List ℕ} (hlook : Looked data vol state row (.enter state' inner))
    (hinner : Explored data vol state' inside inner dirs)
    (hrest : Explored data vol inside final rest dirs') :
    Explored data vol state final (row :: rest) (dirs' ++ dirs ++ [row.start]) := by
  cases hlook with
  | @entered content hnamed hdir hfresh hcontent =>
      have hrows : rowsOf data vol (some row.start) =
          (listing (some row.start) row.logical content).map Row.bare :=
        rowsOf_of_content (show directoryContent data vol (some row.start) = _ from hcontent) _
      have hvisited : final.visitedDirs = dirs' ++ dirs ++ [row.start] ++ state.visitedDirs := by
        rw [hrest.visited, hinner.visited]
        simp
      refine ⟨hvisited, ?_, ?_, ?_, ?_, ?_⟩
      · refine List.nodup_append'.2 ⟨List.nodup_append'.2 ⟨hrest.distinct, hinner.distinct, ?_⟩,
          List.nodup_singleton _, ?_⟩
        · intro d hd hd'
          refine hrest.fresh d hd ?_
          rw [hinner.visited]
          exact List.mem_append_left _ hd'
        · intro d hd hd'
          obtain rfl := List.mem_singleton.1 hd'
          rcases List.mem_append.1 hd with hd | hd
          · exact hrest.fresh _ hd (hinner.mono List.mem_cons_self)
          · exact hinner.fresh _ hd List.mem_cons_self
      · intro d hd hd'
        rcases List.mem_append.1 hd with hd | hd
        · rcases List.mem_append.1 hd with hd | hd
          · exact hrest.fresh d hd (hinner.mono (List.mem_cons_of_mem _ hd'))
          · exact hinner.fresh d hd (List.mem_cons_of_mem _ hd')
        · obtain rfl := List.mem_singleton.1 hd
          exact hfresh hd'
      · have hinside := hinner.found
        have hfound := hrest.found
        rw [files_cons, show files [row] = [] by simp [files, hdir], List.nil_append]
        rw [← files_map_bare (listing _ _ _), ← hrows] at hinside
        refine hfound.trans ?_
        refine (((hinside.append_right _).append_right _)).trans ?_
        simp only [List.flatMap_append, List.flatMap_singleton, List.append_assoc]
        -- the directory's own files, those below it and the rest come in another order
        refine List.perm_iff_count.2 fun item => ?_
        simp only [List.count_append]
        omega
      · intro item hitem hnamed' hdir'
        rcases List.mem_cons.1 hitem with rfl | hitem
        · rw [hvisited]
          simp
        · exact hrest.entered item hitem hnamed' hdir'
      · intro d hd item hitem hnamed' hdir'
        rcases List.mem_append.1 hd with hd | hd
        · rcases List.mem_append.1 hd with hd | hd
          · exact hrest.closed d hd item hitem hnamed' hdir'
          · exact hrest.mono (hinner.closed d hd item hitem hnamed' hdir')
        · obtain rfl := List.mem_singleton.1 hd
          rw [hrows] at hitem
          obtain ⟨row', hrow', rfl⟩ := List.mem_map.1 hitem
          exact hrest.mono (hinner.entered row' hrow' hnamed' hdir')

lemma explored_of_done {frames : ℕ} {state final : WalkState} {items : List Row}
    (h : Done (look data vol) frames state items final) :
    ∃ dirs, Explored data vol state final items dirs := by
  induction h with
  | nil => exact ⟨[], .nil _⟩
  | stay hlook _ ih =>
      obtain ⟨dirs, hdirs⟩ := ih
      exact ⟨dirs, .stay (looked_of_look hlook) hdirs⟩
  | enter hlook _ _ hinner hrest =>
      obtain ⟨dirs, hdirs⟩ := hinner
      obtain ⟨dirs', hdirs'⟩ := hrest
      exact ⟨_, .enter (looked_of_look hlook) hdirs hdirs'⟩

/-- A row of a directory that the walk enters. -/
def Reachable (data : Bytes) (vol : Volume) (row : Row) : Prop :=
  ReadDirectory data vol row.directory ∧ row.bare ∈ rowsOf data vol row.directory

lemma Reachable.sub {row : Row} (h : Reachable data vol row) (hdir : row.isDirectory = true)
    (hnamed : row.passedOver = false) : ReadDirectory data vol (some row.start) :=
  @ReadDirectory.sub data vol row.directory row.bare h.1 h.2 hdir hnamed

lemma reachable_listing {directory : Option ℕ} {content : Bytes}
    (hread : ReadDirectory data vol directory)
    (hcontent : directoryContent data vol directory = .ok content) (head : PyStr) :
    ∀ row ∈ listing directory head content, Reachable data vol row := by
  intro row hrow
  obtain hdirectory := directory_of_mem_readRows hrow
  refine ⟨hdirectory ▸ hread, ?_⟩
  rw [hdirectory, rowsOf_of_content hcontent head]
  exact List.mem_map_of_mem hrow

/-- The rows of an opened directory are reachable. -/
lemma reachable_inner {state state' : WalkState} {row : Row} {inner : List Row}
    (hrow : Reachable data vol row) (hlook : look data vol state row = .ok (.enter state' inner)) :
    ∀ item ∈ inner, Reachable data vol item := by
  cases looked_of_look hlook with
  | entered hnamed hdir _ hcontent =>
      exact reachable_listing (hrow.sub hdir hnamed) hcontent _

/-- The walk enters only directories it is led to. -/
lemma readDirectory_of_done {frames : ℕ} {state final : WalkState} {items : List Row}
    (h : Done (look data vol) frames state items final)
    (hitems : ∀ row ∈ items, Reachable data vol row)
    (hstate : ∀ d ∈ state.visitedDirs, ReadDirectory data vol (some d)) :
    ∀ d ∈ final.visitedDirs, ReadDirectory data vol (some d) := by
  induction h with
  | nil => exact hstate
  | stay hlook _ ih =>
      refine ih (fun row hrow => hitems row (List.mem_cons_of_mem _ hrow)) ?_
      cases looked_of_look hlook with
      | passed _ => exact hstate
      | again _ _ _ => exact hstate
      | file _ _ _ => exact hstate
  | enter hlook _ _ hinner hrest =>
      have hrow := hitems _ List.mem_cons_self
      refine hrest (fun row hrow => hitems row (List.mem_cons_of_mem _ hrow)) ?_
      refine hinner (reachable_inner hrow hlook) ?_
      cases looked_of_look hlook with
      | entered hnamed hdir _ _ =>
          intro d hd
          rcases List.mem_cons.1 hd with rfl | hd
          · exact hrow.sub hdir hnamed
          · exact hstate d hd

/-- The entries have the content of their rows, and the visited directories can be read. -/
def Sound (data : Bytes) (vol : Volume) (state : WalkState) : Prop :=
  (∀ f ∈ state.found, chain data vol f.row.start (some f.row.size) = .ok f.entry.data) ∧
    ∀ d ∈ state.visitedDirs, ∃ content, chain data vol d none = .ok content

lemma sound_of_done {frames : ℕ} {state final : WalkState} {items : List Row}
    (h : Done (look data vol) frames state items final) (hstate : Sound data vol state) :
    Sound data vol final := by
  refine h.invariant (I := Sound data vol) ?_ ?_ hstate
  · intro s s' item hs hlook
    cases looked_of_look hlook with
    | passed _ => exact hs
    | again _ _ _ => exact hs
    | file _ _ hcontent =>
        refine ⟨fun f hf => ?_, hs.2⟩
        rcases List.mem_append.1 hf with hf | hf
        · exact hs.1 f hf
        · obtain rfl := List.mem_singleton.1 hf
          exact hcontent
  · intro s s' item inner hs hlook
    cases looked_of_look hlook with
    | entered _ _ _ hcontent =>
        refine ⟨hs.1, fun d hd => ?_⟩
        rcases List.mem_cons.1 hd with rfl | hd
        · exact ⟨_, hcontent⟩
        · exact hs.2 d hd

/-! ## The whole walk -/

lemma rowsOf_directory {directory : Option ℕ} {row : Row}
    (h : row ∈ rowsOf data vol directory) : row.directory = directory := by
  unfold rowsOf at h
  split at h
  · exact directory_of_mem_readRows h
  · exact absurd h List.not_mem_nil

lemma rowsOf_bare {directory : Option ℕ} {row : Row} (h : row ∈ rowsOf data vol directory) :
    row.bare = row := by
  cases hcontent : directoryContent data vol directory with
  | error e =>
      rw [rowsOf, hcontent] at h
      exact absurd h List.not_mem_nil
  | ok content =>
      rw [rowsOf_of_content hcontent []] at h
      obtain ⟨item, -, rfl⟩ := List.mem_map.1 h
      rfl

lemma nodup_rowsOf (directory : Option ℕ) : (rowsOf data vol directory).Nodup := by
  unfold rowsOf
  split
  · next content _ =>
      refine List.Nodup.of_map (fun row => (row.raw, row.index)) ?_
      rw [listing, readRows_raw]
      refine List.Nodup.filter _ (List.Nodup.sublist (List.takeWhile_sublist _) ?_)
      refine List.Nodup.of_map Prod.snd ?_
      rw [rows, List.zipIdx_map_snd]
      exact List.nodup_range'
  · exact .nil

lemma mem_files_rowsOf {directory : Option ℕ} {row : Row} :
    row ∈ files (rowsOf data vol directory) ↔
      row ∈ rowsOf data vol directory ∧ row.passedOver = false ∧ row.isDirectory = false := by
  rw [mem_files]
  constructor
  · rintro ⟨item, hitem, hnamed, hfile, rfl⟩
    exact ⟨(rowsOf_bare hitem).symm ▸ hitem, hnamed, hfile⟩
  · rintro ⟨hrow, hnamed, hfile⟩
    exact ⟨row, hrow, hnamed, hfile, rowsOf_bare hrow⟩

lemma nodup_files_rowsOf (directory : Option ℕ) : (files (rowsOf data vol directory)).Nodup := by
  refine List.Nodup.map_on ?_ ((nodup_rowsOf directory).filter _)
  intro row hrow row' hrow' h
  rw [← rowsOf_bare (List.mem_of_mem_filter hrow), h, rowsOf_bare (List.mem_of_mem_filter hrow')]

lemma readFile_iff {row : Row} :
    ReadFile data vol row ↔
      ∃ directory, ReadDirectory data vol directory ∧ row ∈ files (rowsOf data vol directory) := by
  constructor
  · intro h
    exact ⟨_, h.reached, mem_files_rowsOf.2 ⟨h.present, h.named, h.file⟩⟩
  · rintro ⟨directory, hread, hrow⟩
    obtain ⟨hmem, hnamed, hfile⟩ := mem_files_rowsOf.1 hrow
    obtain rfl := rowsOf_directory hmem
    exact ⟨hread, hmem, hfile, hnamed⟩

/-- The rows a finished walk has turned into entries: every file row it reads, once. -/
structure Enumerated (data : Bytes) (vol : Volume) (found : List Found) : Prop where
  once : (found.map fun f => f.row.bare).Nodup
  read : ∀ row, row ∈ found.map (fun f => f.row.bare) ↔ ReadFile data vol row
  content : ∀ f ∈ found, chain data vol f.row.start (some f.row.size) = .ok f.entry.data

lemma enumerate_eq_ok {frames : ℕ} {found : List Found} :
    enumerate data vol frames = .ok found ↔ ∃ root final, rootContent data vol = .ok root ∧
      Done (look data vol) frames ⟨[], []⟩ (listing none [] root) final ∧ final.found = found := by
  unfold enumerate
  rw [bind_eq_ok]
  refine exists_congr fun root => ?_
  rw [bind_eq_ok]
  constructor
  · rintro ⟨hroot, final, hwalk, hfound⟩
    exact ⟨final, hroot, walk_eq_ok_iff.1 hwalk, Except.ok.inj hfound⟩
  · rintro ⟨final, hroot, hdone, rfl⟩
    exact ⟨hroot, final, walk_eq_ok_iff.2 hdone, rfl⟩

/-- A finished walk has entered every directory it is led to. -/
lemma mem_visited_iff {frames : ℕ} {root : Bytes} {final : WalkState}
    (hroot : rootContent data vol = .ok root)
    (h : Done (look data vol) frames ⟨[], []⟩ (listing none [] root) final) {start : ℕ} :
    start ∈ final.visitedDirs ↔ ReadDirectory data vol (some start) := by
  constructor
  · refine readDirectory_of_done h (reachable_listing .root hroot []) (fun d hd => ?_) start
    exact absurd hd List.not_mem_nil
  · obtain ⟨dirs, hdirs⟩ := explored_of_done h
    have hvisited : final.visitedDirs = dirs := by simpa using hdirs.visited
    suffices hsub : ∀ directory, ReadDirectory data vol directory →
        ∀ d, directory = some d → d ∈ final.visitedDirs from fun hread => hsub _ hread _ rfl
    intro directory hread
    induction hread with
    | root => exact fun d hd => absurd hd (by simp)
    | @sub directory row _ hrow hdir hnamed ih =>
        intro d hd
        obtain rfl := Option.some.inj hd
        cases directory with
        | none =>
            rw [rowsOf_of_content (show directoryContent data vol none = _ from hroot) []] at hrow
            obtain ⟨item, hitem, rfl⟩ := List.mem_map.1 hrow
            exact hdirs.entered item hitem hnamed hdir
        | some parent =>
            have hparent := ih parent rfl
            rw [hvisited] at hparent
            exact hdirs.closed parent hparent row hrow hnamed hdir

theorem enumerated_of_ok {frames : ℕ} {found : List Found}
    (h : enumerate data vol frames = .ok found) : Enumerated data vol found := by
  obtain ⟨root, final, hroot, hdone, rfl⟩ := enumerate_eq_ok.1 h
  obtain ⟨dirs, hdirs⟩ := explored_of_done hdone
  have hvisited : final.visitedDirs = dirs := by simpa using hdirs.visited
  have hfiles : files (listing none [] root) = files (rowsOf data vol none) := by
    rw [rowsOf_of_content (show directoryContent data vol none = _ from hroot) [], files_map_bare]
  have hperm := hdirs.found
  rw [List.map_nil, List.nil_append, hfiles] at hperm
  refine ⟨hperm.nodup_iff.2 ?_, fun row => hperm.mem_iff.trans ?_, ?_⟩
  · refine List.nodup_append'.2 ⟨nodup_files_rowsOf none, ?_, ?_⟩
    · refine List.nodup_flatMap.2 ⟨fun d _ => nodup_files_rowsOf _, ?_⟩
      refine hdirs.distinct.imp fun {d d'} hne => ?_
      intro row hrow hrow'
      have hd := rowsOf_directory (mem_files_rowsOf.1 hrow).1
      have hd' := rowsOf_directory (mem_files_rowsOf.1 hrow').1
      exact hne (Option.some.inj (hd.symm.trans hd'))
    · intro row hrow hrow'
      obtain ⟨d, -, hrow'⟩ := List.mem_flatMap.1 hrow'
      have hd := rowsOf_directory (mem_files_rowsOf.1 hrow).1
      have hd' := rowsOf_directory (mem_files_rowsOf.1 hrow').1
      cases hd.symm.trans hd'
  · rw [List.mem_append, List.mem_flatMap, readFile_iff]
    constructor
    · rintro (hrow | ⟨d, hd, hrow⟩)
      · exact ⟨none, .root, hrow⟩
      · exact ⟨some d, (mem_visited_iff hroot hdone).1 (hvisited ▸ hd), hrow⟩
    · rintro ⟨directory, hread, hrow⟩
      cases directory with
      | none => exact .inl hrow
      | some d => exact .inr ⟨d, hvisited ▸ (mem_visited_iff hroot hdone).2 hread, hrow⟩
  · exact (sound_of_done hdone ⟨fun f hf => absurd hf List.not_mem_nil,
      fun d hd => absurd hd List.not_mem_nil⟩).1

/-! ## How a walk fails -/

/-- What `chain` is asked for: the content of a file, or of a whole directory. -/
def Row.wanted (row : Row) : Option ℕ := if row.isDirectory then none else some row.size

/-- Every row the walk reads has a cluster chain. -/
structure AllReadable (data : Bytes) (vol : Volume) : Prop where
  root : ∃ content, rootContent data vol = .ok content
  rows : ∀ row, ReadDirectory data vol row.directory → row ∈ rowsOf data vol row.directory →
    row.passedOver = false → ∃ content, chain data vol row.start row.wanted = .ok content

/-- The walk never has more directories open than there are call frames. -/
def Shallow (data : Bytes) (vol : Volume) (frames : ℕ) : Prop :=
  ∀ root, rootContent data vol = .ok root →
    OpenAtMost (look data vol) frames ⟨[], []⟩ (listing none [] root)

lemma raises_chainFrom {wanted : Option ℕ} {remaining : ℕ} {seen : List ℕ} {out : Bytes}
    {current : ℕ} : Raises IsDiskImage (chainFrom data vol wanted remaining seen out current) := by
  induction remaining generalizing seen out current with
  | zero => exact .error rfl
  | succ remaining ih =>
      refine .ite (fun _ => .error rfl) fun _ => .bind ?_ fun block _ => ?_
      · exact .ite (fun _ => .error rfl) fun _ => .ok _
      refine .ite (fun _ => .ok _) fun _ => .bind ?_ fun next _ => ?_
      · refine .bind ?_ fun entry _ => ?_
        · unfold readEntry
          cases vol.variant <;> exact .ite (fun _ => .error rfl) fun _ => .ok _
        · exact .ite (fun _ => .ok _) fun _ => .ite (fun _ => .error rfl) fun _ => .ok _
      · cases next with
        | none => exact .ite (fun _ => .error rfl) fun _ => .ok _
        | some next => exact ih

lemma raises_chain {start : ℕ} {wanted : Option ℕ} :
    Raises IsDiskImage (chain data vol start wanted) :=
  .ite (fun _ => .ite (fun _ => .error rfl) fun _ => .ok _) fun _ => raises_chainFrom

lemma raises_rootContent : Raises IsDiskImage (rootContent data vol) :=
  .ite (fun _ => raises_chain) fun _ => .ok _

/-- A look fails only at a row with a name and without a chain. -/
lemma look_error {state : WalkState} {row : Row} {e : Exc}
    (h : look data vol state row = .error e) :
    row.passedOver = false ∧ chain data vol row.start row.wanted = .error e := by
  unfold look at h
  cases hpassed : row.passedOver with
  | true =>
      rw [hpassed, if_pos rfl] at h
      cases h
  | false =>
      rw [hpassed, if_neg Bool.false_ne_true] at h
      refine ⟨rfl, ?_⟩
      cases hdir : row.isDirectory with
      | true =>
          rw [hdir, if_pos rfl] at h
          rw [Row.wanted, hdir, if_pos rfl]
          split at h
          · cases h
          · cases hchain : chain data vol row.start none with
            | ok content =>
                rw [hchain] at h
                cases h
            | error e' =>
                rw [hchain] at h
                rw [Except.error.inj h]
      | false =>
          rw [hdir, if_neg Bool.false_ne_true] at h
          rw [Row.wanted, hdir, if_neg Bool.false_ne_true]
          cases hchain : chain data vol row.start (some row.size) with
          | ok content =>
              rw [hchain] at h
              cases h
          | error e' =>
              rw [hchain] at h
              rw [Except.error.inj h]

/-- What a walk that fails has failed at. -/
lemma enumerate_error {frames : ℕ} {e : Exc} (h : enumerate data vol frames = .error e) :
    IsDiskImage e ∧ ¬AllReadable data vol ∨ e = Exc.tooDeep ∧ ¬Shallow data vol frames := by
  unfold enumerate at h
  cases hroot : rootContent data vol with
  | error e' =>
      rw [hroot] at h
      obtain rfl : e' = e := Except.error.inj h
      refine .inl ⟨raises_rootContent _ hroot, fun hall => ?_⟩
      obtain ⟨content, hcontent⟩ := hall.root
      cases hroot.symm.trans hcontent
  | ok root =>
      rw [hroot] at h
      have hwalk : walk Exc.tooDeep (look data vol) frames ⟨[], []⟩ (listing none [] root) =
          .error e := by
        cases hwalk : walk Exc.tooDeep (look data vol) frames ⟨[], []⟩ (listing none [] root) with
        | ok final =>
            simp only [hwalk, bind, Except.bind, pure, Except.pure] at h
            cases h
        | error e' =>
            simp only [hwalk, bind, Except.bind, Except.error.injEq] at h
            rw [h]
      have hreach := reachable_listing .root
        (show directoryContent data vol none = _ from hroot) []
      rcases error_cases reachable_inner hreach hwalk with
        ⟨state, row, hrow, hfail⟩ | ⟨hdeep, hopen⟩
      · obtain ⟨hnamed, hchain⟩ := look_error hfail
        refine .inl ⟨raises_chain _ hchain, fun hall => ?_⟩
        obtain ⟨content, hcontent⟩ := hall.rows row.bare hrow.1 hrow.2 hnamed
        cases hchain.symm.trans hcontent
      · exact .inr ⟨hdeep, fun hshallow => hopen (hshallow root hroot)⟩

lemma allReadable_of_ok {frames : ℕ} {found : List Found}
    (h : enumerate data vol frames = .ok found) : AllReadable data vol := by
  have henum := enumerated_of_ok h
  obtain ⟨root, final, hroot, hdone, rfl⟩ := enumerate_eq_ok.1 h
  refine ⟨⟨root, hroot⟩, fun row hread hrow hnamed => ?_⟩
  cases hdir : row.isDirectory with
  | true =>
      rw [Row.wanted, hdir, if_pos rfl]
      refine (sound_of_done hdone ⟨fun f hf => absurd hf List.not_mem_nil,
        fun d hd => absurd hd List.not_mem_nil⟩).2 _ ?_
      exact (mem_visited_iff hroot hdone).2 (.sub hread hrow hdir hnamed)
  | false =>
      rw [Row.wanted, hdir, if_neg Bool.false_ne_true]
      obtain ⟨f, hf, rfl⟩ := List.mem_map.1 ((henum.read row).2 ⟨hread, hrow, hdir, hnamed⟩)
      exact ⟨_, henum.content f hf⟩

/-- How an enumeration ends. -/
theorem enumerate_cases (frames : ℕ) :
    (∃ found, enumerate data vol frames = .ok found ∧ AllReadable data vol ∧
        Shallow data vol frames ∧ Enumerated data vol found) ∨
      (∃ e, enumerate data vol frames = .error e ∧ IsDiskImage e ∧ ¬AllReadable data vol ∧
        Shallow data vol frames) ∨
      enumerate data vol frames = .error Exc.tooDeep ∧ ¬Shallow data vol frames := by
  have hlook : ∀ state row, look data vol state row ≠ .error Exc.tooDeep := by
    intro state row h
    have := raises_chain _ (look_error h).2
    cases this
  by_cases hshallow : Shallow data vol frames
  · cases h : enumerate data vol frames with
    | ok found => exact .inl ⟨found, rfl, allReadable_of_ok h, hshallow, enumerated_of_ok h⟩
    | error e =>
        rcases enumerate_error h with ⟨hkind, hall⟩ | ⟨-, hdeep⟩
        · exact .inr (.inl ⟨e, rfl, hkind, hall, hshallow⟩)
        · exact absurd hshallow hdeep
  · refine .inr (.inr ⟨?_, hshallow⟩)
    simp only [Shallow, not_forall] at hshallow
    obtain ⟨root, hroot, hopen⟩ := hshallow
    rw [enumerate, hroot]
    show (walk _ _ _ _ _ >>= _) = _
    rw [(walk_eq_deep_iff hlook).2 hopen]
    rfl

end Looks

end Fat

end AVBox
