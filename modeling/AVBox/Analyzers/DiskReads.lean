import AVBox.Analyzers.AdfVolumes
import AVBox.Analyzers.FatImages

/-!
# The readers of disk images, read by read

`_parse_fat` and `_parse_adf` once more, in the order in which the source does things, with two
kinds of accidents that the readers of `DiskImages` leave no room for.

* A read past the end of a buffer raises what `struct` or an index raises.
* A `while` loop that has made `steps` passes is given up as unending.

Where a directory is walked, rows and hash chains are followed as the walk goes along.
`parseFat_eq` and `parseAdf_eq` say that with enough steps neither accident happens: the two
readers are those of `DiskImages`.
-/

namespace AVBox

open Binary Walk

/-! ## Reads -/

/-- What `struct.unpack_from` raises past the end of a buffer. -/
def Exc.unpack (size offset length : ℕ) : Exc :=
  ⟨.other, "error", s!"unpack_from requires a buffer of at least {offset + size} bytes " ++
    s!"for unpacking {size} bytes at offset {offset} (actual buffer size is {length})"⟩

/-- What an index past the end raises. -/
def Exc.indexRange : Exc := ⟨.other, "IndexError", "index out of range"⟩

namespace DiskReads

/-- A word of `size` bytes. -/
def unpackFrom (word : Bytes → ℕ → ℕ) (size : ℕ) (data : Bytes) (offset : ℕ) : Except Exc ℕ :=
  if offset + size ≤ data.length then .ok (word data offset)
  else .error (.unpack size offset data.length)

/-- `_u16`. -/
def getU16 (data : Bytes) (offset : ℕ) : Except Exc ℕ := unpackFrom le16 2 data offset

/-- `_u32`. -/
def getU32 (data : Bytes) (offset : ℕ) : Except Exc ℕ := unpackFrom le32 4 data offset

/-- `_be32`, and `_signed_be32` up to the sign. -/
def getBe32 (data : Bytes) (offset : ℕ) : Except Exc ℕ := unpackFrom be32 4 data offset

/-- `data[offset]`. -/
def getU8 (data : Bytes) (offset : ℕ) : Except Exc ℕ :=
  if offset < data.length then .ok (u8 data offset) else .error .indexRange

/-- `valid_checksum`; `struct.unpack` wants the whole block. -/
def validChecksum (value : Bytes) : Except Exc Bool :=
  if value.length = 512 then .ok (Adf.blockChecksum value)
  else .error ⟨.other, "error", "unpack requires a buffer of 512 bytes"⟩

lemma getU16_of_le {data : Bytes} {offset : ℕ} (h : offset + 2 ≤ data.length) :
    getU16 data offset = .ok (le16 data offset) := if_pos h

lemma getU32_of_le {data : Bytes} {offset : ℕ} (h : offset + 4 ≤ data.length) :
    getU32 data offset = .ok (le32 data offset) := if_pos h

lemma getBe32_of_le {data : Bytes} {offset : ℕ} (h : offset + 4 ≤ data.length) :
    getBe32 data offset = .ok (be32 data offset) := if_pos h

lemma getU8_of_lt {data : Bytes} {offset : ℕ} (h : offset < data.length) :
    getU8 data offset = .ok (u8 data offset) := if_pos h

lemma validChecksum_of_block {value : Bytes} (h : value.length = 512) :
    validChecksum value = .ok (Adf.blockChecksum value) := if_pos h

/-- `first or second`. -/
def getOr (first second : Except Exc ℕ) : Except Exc ℕ := do
  let short ← first
  if short = 0 then second else return short

/-- `first or second`, for conditions that read. -/
def either (first second : Except Exc Bool) : Except Exc Bool := do
  if ← first then return true else second

/-! ## FAT -/

section Fat

/-- The boot sector, if the file is taken for a volume. -/
def volume (data : Bytes) : Except Exc (Option Fat.Volume) :=
  if data.length < 512 ∨ slice data 510 512 ≠ [0x55, 0xAA] then .ok none
  else do
    let bps ← getU16 data 11
    let spc ← getU8 data 13
    let reserved ← getU16 data 14
    let fats ← getU8 data 16
    let rootEntries ← getU16 data 17
    let total ← getOr (getU16 data 19) (getU32 data 32)
    let fatSize ← getOr (getU16 data 22) (getU32 data 36)
    let vol : Fat.Volume := ⟨bps, spc, reserved, fats, rootEntries, total, fatSize, le32 data 44⟩
    if bps ∉ [512, 1024, 2048, 4096] ∨ spc = 0 ∨ spc &&& (spc - 1) ≠ 0 ∨ reserved = 0 ∨
        fats ∉ [1, 2] ∨ total = 0 ∨ fatSize = 0 ∨ total * bps > data.length then return none
    else if vol.firstData ≥ total then return none
    else if vol.variant = .fat32 then
      if rootEntries ≠ 0 then return none
      else do
        let rootCluster ← getU32 data 44
        if rootCluster < 2 then return none else return some vol
    else return some vol

variable (data : Bytes) (vol : Fat.Volume)

/-- What `next_cluster` reads from the FAT. -/
def readEntry (cluster : ℕ) : Except Exc (ℕ × Bool) :=
  let fat := Fat.fatBytes data vol
  match vol.variant with
  | .fat12 =>
      let pos := cluster + cluster / 2
      if pos + 2 > fat.length then .error (.diskImage "FAT12 entry lies outside the FAT")
      else
        let word := leNat (slice fat pos (pos + 2))
        let value := if cluster % 2 = 1 then word / 16 else word % 0x1000
        .ok (value, decide (value ≥ 0xFF8))
  | .fat16 =>
      let pos := cluster * 2
      if pos + 2 > fat.length then .error (.diskImage "FAT16 entry lies outside the FAT")
      else do
        let value ← getU16 fat pos
        return (value, decide (value ≥ 0xFFF8))
  | .fat32 =>
      let pos := cluster * 4
      if pos + 4 > fat.length then .error (.diskImage "FAT32 entry lies outside the FAT")
      else do
        let word ← getU32 fat pos
        let value := word % 0x10000000
        return (value, decide (value ≥ 0x0FFFFFF8))

/-- `next_cluster`. -/
def nextCluster (cluster : ℕ) : Except Exc (Option ℕ) := do
  let (value, eof) ← readEntry data vol cluster
  if eof then return none
  else if value < 2 ∨ value ≥ vol.clusters + 2 then
    .error (.diskImage "invalid FAT cluster chain")
  else return some value

/-- The `while` loop of `chain`. -/
def chainFrom (wanted : Option ℕ) : ℕ → List ℕ → Bytes → ℕ → Except Exc Bytes
  | 0, _, _, _ => .error .unending
  | steps + 1, seen, out, current =>
      if current ∈ seen ∨ seen.length > vol.clusters then
        .error (.diskImage "cyclic FAT cluster chain")
      else do
        let out := out ++ (← Fat.clusterData data vol current)
        if wanted.any (· ≤ out.length) then return out.take (wanted.getD 0)
        else match ← nextCluster data vol current with
          | some next => chainFrom wanted steps (current :: seen) out next
          | none =>
              if wanted.isSome then .error (.diskImage "truncated FAT file") else return out

/-- `chain`. -/
def chain (steps start : ℕ) (wanted : Option ℕ) : Except Exc Bytes :=
  if start < 2 then
    if wanted.any (· ≠ 0) then .error (.diskImage "missing cluster") else .ok []
  else chainFrom data vol wanted steps [] [] start

structure FatState where
  entries : List DiskEntry
  visitedDirs : List ℕ

/-- The `for` loop of `walk`, over the rows that are left.  `descend` is the recursive call. -/
def walkRows (descend : FatState → PyStr → Bytes → Except Exc FatState) (steps : ℕ)
    (head : PyStr) : List Bytes → List PyStr → FatState → Except Exc FatState
  | [], _, state => .ok state
  | row :: rest, longParts, state => do
      let first ← getU8 row 0
      if first = 0 then return state
      else if first = 0xE5 then walkRows descend steps head rest [] state
      else do
        let attr ← getU8 row 11
        if attr = 0x0F then
          walkRows descend steps head rest (Fat.longPart row :: longParts) state
        else if attr.testBit 3 then walkRows descend steps head rest [] state
        else
          let name := if longParts = [] then Fat.shortName row else longParts.flatten
          if name ∈ PyStr.dots ∨ name = [] then walkRows descend steps head rest [] state
          else do
            let logical := PyStr.under head name
            let low ← getU16 row 26
            let high ← getU16 row 20
            let start := low + high * 0x10000
            if attr.testBit 4 then
              if start ∈ state.visitedDirs then walkRows descend steps head rest [] state
              else do
                let content ← chain data vol steps start none
                let state ← descend { state with visitedDirs := start :: state.visitedDirs }
                  logical content
                walkRows descend steps head rest [] state
            else do
              let size ← getU32 row 28
              let content ← chain data vol steps start (some size)
              let entry : DiskEntry := ⟨logical, content, state.entries.length⟩
              walkRows descend steps head rest []
                { state with entries := state.entries ++ [entry] }

/-- `walk`. -/
def walkFat (steps : ℕ) : ℕ → FatState → PyStr → Bytes → Except Exc FatState
  | 0, _, _, _ => .error .tooDeep
  | frames + 1, state, head, directory =>
      walkRows data vol (walkFat steps frames) steps head ((Fat.rows directory).map Prod.fst) []
        state

/-- The content of the root directory. -/
def rootContent (steps : ℕ) : Except Exc Bytes :=
  if vol.variant = .fat32 then do
    let rootCluster ← getU32 data 44
    chain data vol steps rootCluster none
  else
    let start := (vol.reserved + vol.fats * vol.fatSize) * vol.bps
    .ok (slice data start (start + vol.rootSectors * vol.bps))

end Fat

/-- `_parse_fat`. -/
def parseFat (frames steps : ℕ) (data : Bytes) : Except Exc (Option DiskImage) := do
  match ← volume data with
  | none => return none
  | some vol => do
      let root ← rootContent data vol steps
      let final ← walkFat data vol steps frames ⟨[], []⟩ [] root
      return some
        { format := "raw-fat-image"
          filesystem := .fat vol.variant
          label := Fat.label data vol
          entries := final.entries }

/-! ### Nothing happens to the FAT reader -/

section Fat

variable {data : Bytes} {vol : Fat.Volume} {steps : ℕ}

lemma getOr_ok (short long : ℕ) : getOr (.ok short) (.ok long) = .ok (Fat.orLong short long) := by
  by_cases h : short = 0
  · rw [Fat.orLong, if_pos h]
    exact if_pos h
  · rw [Fat.orLong, if_neg h]
    exact if_neg h

/-- The checks one after the other. -/
lemma checks_eq (vol : Fat.Volume) (size : ℕ) :
    (if vol.bps ∉ [512, 1024, 2048, 4096] ∨ vol.spc = 0 ∨ vol.spc &&& (vol.spc - 1) ≠ 0 ∨
        vol.reserved = 0 ∨ vol.fats ∉ [1, 2] ∨ vol.total = 0 ∨ vol.fatSize = 0 ∨
        vol.total * vol.bps > size then (.ok none : Except Exc (Option Fat.Volume))
      else if vol.firstData ≥ vol.total then .ok none
      else if vol.variant = .fat32 then
        if vol.rootEntries ≠ 0 then .ok none
        else if vol.rootCluster < 2 then .ok none else .ok (some vol)
      else .ok (some vol)) = .ok (if vol.Coherent size then some vol else none) := by
  unfold Fat.Volume.Coherent
  split_ifs with hgeometry hcoherent hroom hcoherent hfat32 hentries hcoherent hcluster <;> grind

lemma volume_eq (data : Bytes) : volume data = .ok (Fat.volume data) := by
  unfold volume Fat.volume
  by_cases hboot : data.length < 512 ∨ slice data 510 512 ≠ [0x55, 0xAA]
  · rw [if_pos hboot, if_pos hboot]
  · have hlength : 512 ≤ data.length := Nat.le_of_not_lt (not_or.1 hboot).1
    rw [if_neg hboot, if_neg hboot, getU16_of_le (by omega), getU8_of_lt (by omega),
      getU16_of_le (by omega), getU8_of_lt (by omega), getU16_of_le (by omega),
      getU16_of_le (by omega), getU32_of_le (by omega), getOr_ok, getU16_of_le (by omega),
      getU32_of_le (by omega), getOr_ok, getU32_of_le (by omega)]
    simp only [bind, Except.bind, pure, Except.pure]
    exact checks_eq (Fat.Volume.ofBoot data) data.length

lemma readEntry_eq (cluster : ℕ) : readEntry data vol cluster = Fat.readEntry data vol cluster := by
  unfold readEntry Fat.readEntry
  cases vol.variant with
  | fat12 => rfl
  | fat16 =>
      simp only
      split
      · rfl
      · next h => rw [getU16_of_le (Nat.le_of_not_lt h)]; rfl
  | fat32 =>
      simp only
      split
      · rfl
      · next h => rw [getU32_of_le (Nat.le_of_not_lt h)]; rfl

lemma nextCluster_eq (cluster : ℕ) :
    nextCluster data vol cluster = Fat.nextCluster data vol cluster := by
  rw [nextCluster, readEntry_eq]
  rfl

/-- The count of the clusters seen ends the loop before the steps do. -/
lemma chainFrom_eq {wanted : Option ℕ} {seen : List ℕ} {out : Bytes} {current : ℕ}
    (hseen : seen.length ≤ vol.clusters + 1) (hsteps : vol.clusters + 2 ≤ steps + seen.length) :
    chainFrom data vol wanted steps seen out current =
      Fat.chainFrom data vol wanted (vol.clusters + 1 - seen.length) seen out current := by
  induction steps generalizing seen out current with
  | zero => omega
  | succ steps ih =>
      rw [chainFrom]
      by_cases hfull : seen.length = vol.clusters + 1
      · rw [hfull, Nat.sub_self, if_pos (.inr (Nat.lt_succ_self _))]
        rfl
      · obtain ⟨remaining, hremaining⟩ : ∃ r, vol.clusters + 1 - seen.length = r + 1 :=
          ⟨vol.clusters - seen.length, by omega⟩
        rw [hremaining, Fat.chainFrom]
        by_cases hcyclic : current ∈ seen
        · rw [if_pos (.inl hcyclic), if_pos hcyclic]
        · rw [if_neg (not_or.2 ⟨hcyclic, by omega⟩), if_neg hcyclic]
          refine bind_congr fun block => ?_
          refine if_congr Iff.rfl rfl ?_
          rw [nextCluster_eq]
          refine bind_congr fun next => ?_
          cases next with
          | none => rfl
          | some next =>
              have hrest := @ih (current :: seen) (out ++ block) next (by simp; omega)
                (by simp; omega)
              rw [List.length_cons, show vol.clusters + 1 - (seen.length + 1) = remaining by omega]
                at hrest
              exact hrest

lemma chain_eq (hsteps : vol.clusters + 2 ≤ steps) (start : ℕ) (wanted : Option ℕ) :
    chain data vol steps start wanted = Fat.chain data vol start wanted := by
  unfold chain Fat.chain
  rw [chainFrom_eq (Nat.zero_le _) hsteps]
  rfl

lemma rootContent_eq (hdata : 512 ≤ data.length) (hcluster : vol.rootCluster = le32 data 44)
    (hsteps : vol.clusters + 2 ≤ steps) :
    rootContent data vol steps = Fat.rootContent data vol := by
  unfold rootContent Fat.rootContent
  rw [getU32_of_le (by omega), ← chain_eq hsteps, hcluster]
  rfl

/-- What the source keeps of a state. -/
def plain (state : Fat.WalkState) : FatState := ⟨state.found.map Fat.Found.entry, state.visitedDirs⟩

/-- The rows, followed as they are read, are those of the listing. -/
lemma walkRows_eq (hsteps : vol.clusters + 2 ≤ steps) {frames : ℕ}
    {descend : FatState → PyStr → Bytes → Except Exc FatState}
    (hdescend : ∀ state start head content, descend (plain state) head content =
      (walk Exc.tooDeep (Fat.look data vol) frames state
        (Fat.listing (some start) head content)).map plain)
    (directory : Option ℕ) (head : PyStr) (items : List (Bytes × ℕ))
    (hitems : ∀ item ∈ items, item.1.length = 32) (longParts : List PyStr)
    (state : Fat.WalkState) :
    walkRows data vol descend steps head (items.map Prod.fst) longParts (plain state) =
      (walk Exc.tooDeep (Fat.look data vol) (frames + 1) state
        (Fat.readRows directory head longParts items)).map plain := by
  induction items generalizing longParts state with
  | nil => rfl
  | cons item rest ih =>
      obtain ⟨raw, index⟩ := item
      have hraw : raw.length = 32 := hitems _ List.mem_cons_self
      have ih := ih fun other hother => hitems other (List.mem_cons_of_mem _ hother)
      simp only [List.map_cons]
      rw [walkRows, getU8_of_lt (by omega), getU8_of_lt (by omega),
        getU16_of_le (by omega), getU16_of_le (by omega), getU32_of_le (by omega), Fat.readRows]
      simp only [bind, Except.bind, pure, Except.pure]
      by_cases hend : u8 raw 0 = 0
      · rw [if_pos hend, if_pos hend]
        rfl
      by_cases herased : u8 raw 0 = 0xE5
      · rw [if_neg hend, if_pos herased, if_neg hend, if_pos herased]
        exact ih [] state
      by_cases hlong : u8 raw 11 = 0x0F
      · rw [if_neg hend, if_neg herased, if_pos hlong, if_neg hend, if_neg herased, if_pos hlong]
        exact ih _ state
      by_cases hlabel : (u8 raw 11).testBit 3 = true
      · rw [if_neg hend, if_neg herased, if_neg hlong, if_pos hlabel, if_neg hend, if_neg herased,
          if_neg hlong, if_pos hlabel]
        exact ih [] state
      rw [if_neg hend, if_neg herased, if_neg hlong, if_neg hlabel, if_neg hend, if_neg herased,
        if_neg hlong, if_neg hlabel]
      set row : Fat.Row := ⟨directory, index, raw, head,
        if longParts = [] then Fat.shortName raw else longParts.flatten⟩ with hrow
      have hname : (if longParts = [] then Fat.shortName raw else longParts.flatten) =
          row.name := rfl
      have hlogical : PyStr.under head row.name = row.logical := rfl
      have hstart : le16 raw 26 + le16 raw 20 * 65536 = row.start := rfl
      have hsize : le32 raw 28 = row.size := rfl
      have hbit : (u8 raw 11).testBit 4 = row.isDirectory := rfl
      simp only [hname, hlogical, hstart, hsize, hbit]
      by_cases hpassed : row.name ∈ PyStr.dots ∨ row.name = []
      · have hlook : Fat.look data vol state row = .ok (.stay state) :=
          if_pos (decide_eq_true hpassed)
        rw [if_pos hpassed, walk_cons_stay _ hlook]
        exact ih [] state
      have hnamed : ¬row.passedOver = true := by simpa [Fat.Row.passedOver] using hpassed
      rw [if_neg hpassed]
      by_cases hdir : row.isDirectory = true
      · by_cases hvisited : row.start ∈ state.visitedDirs
        · have hlook : Fat.look data vol state row = .ok (.stay state) := by
            rw [Fat.look, if_neg hnamed, if_pos hdir, if_pos hvisited]
          rw [if_pos hdir, if_pos (show row.start ∈ (plain state).visitedDirs from hvisited),
            walk_cons_stay _ hlook]
          exact ih [] state
        · rw [if_pos hdir, if_neg (show row.start ∉ (plain state).visitedDirs from hvisited),
            chain_eq hsteps]
          cases hchain : Fat.chain data vol row.start none with
          | error e =>
              have hlook : Fat.look data vol state row = .error e := by
                rw [Fat.look, if_neg hnamed, if_pos hdir, if_neg hvisited, hchain]
                rfl
              rw [walk_cons_error _ hlook]
              rfl
          | ok content =>
              set entered : Fat.WalkState :=
                { state with visitedDirs := row.start :: state.visitedDirs } with hentered
              have hlook : Fat.look data vol state row =
                  .ok (.enter entered (Fat.listing (some row.start) row.logical content)) := by
                rw [Fat.look, if_neg hnamed, if_pos hdir, if_neg hvisited, hchain]
                rfl
              have hinner : descend ⟨(plain state).entries, row.start :: (plain state).visitedDirs⟩
                  row.logical content = (walk Exc.tooDeep (Fat.look data vol) frames entered
                    (Fat.listing (some row.start) row.logical content)).map plain :=
                hdescend entered row.start row.logical content
              rw [walk_cons_enter _ hlook]
              simp only
              rw [hinner]
              cases walk Exc.tooDeep (Fat.look data vol) frames entered
                  (Fat.listing (some row.start) row.logical content) with
              | error e => rfl
              | ok inside => exact ih [] inside
      · rw [if_neg hdir, chain_eq hsteps]
        cases hchain : Fat.chain data vol row.start (some row.size) with
        | error e =>
            have hlook : Fat.look data vol state row = .error e := by
              rw [Fat.look, if_neg hnamed, if_neg hdir, hchain]
              rfl
            rw [walk_cons_error _ hlook]
            rfl
        | ok content =>
            set found : Fat.WalkState :=
              { state with
                found := state.found ++ [⟨row, ⟨row.logical, content, state.found.length⟩⟩] }
              with hfound
            have hlook : Fat.look data vol state row = .ok (.stay found) := by
              rw [Fat.look, if_neg hnamed, if_neg hdir, hchain]
              rfl
            have hplain : plain found = { plain state with
                entries := (plain state).entries ++
                  [⟨row.logical, content, (plain state).entries.length⟩] } := by
              simp [plain, hfound]
            rw [walk_cons_stay _ hlook, ← ih [] found, hplain]

/-- The walk of the source is the one on listings. -/
lemma walkFat_eq (hsteps : vol.clusters + 2 ≤ steps) (frames : ℕ) (state : Fat.WalkState)
    (directory : Option ℕ) (head : PyStr) (content : Bytes) :
    walkFat data vol steps frames (plain state) head content =
      (walk Exc.tooDeep (Fat.look data vol) frames state (Fat.listing directory head content)).map
        plain := by
  induction frames generalizing state directory head content with
  | zero => rfl
  | succ frames ih =>
      refine walkRows_eq hsteps (fun state start head content => ih state (some start) head content)
        directory head (Fat.rows content) (fun item hitem => ?_) [] state
      obtain ⟨hindex, hraw⟩ := Fat.mem_rows hitem
      rw [hraw, length_slice_of_le (by omega)]

/-- What is known of a file that is taken for a volume. -/
lemma ofBoot_of_volume (h : Fat.volume data = some vol) :
    512 ≤ data.length ∧ vol = Fat.Volume.ofBoot data := by
  unfold Fat.volume at h
  split at h
  · cases h
  · next hboot =>
      simp only at h
      split at h
      · cases h
        exact ⟨Nat.le_of_not_lt (not_or.1 hboot).1, rfl⟩
      · cases h

/-- With enough steps the FAT reader makes no read past a buffer and gives no loop up. -/
theorem parseFat_eq (frames : ℕ) (data : Bytes) :
    ∃ enough, ∀ steps ≥ enough, parseFat frames steps data = Fat.parse frames data := by
  unfold parseFat Fat.parse
  rw [volume_eq]
  cases hvolume : Fat.volume data with
  | none => exact ⟨0, fun _ _ => rfl⟩
  | some vol =>
      refine ⟨vol.clusters + 2, fun steps hsteps => ?_⟩
      obtain ⟨hlength, hvol⟩ := ofBoot_of_volume hvolume
      have hcluster : vol.rootCluster = le32 data 44 := by rw [hvol]; rfl
      simp only [bind, Except.bind, pure, Except.pure]
      rw [rootContent_eq hlength hcluster hsteps, Fat.enumerate]
      simp only [bind, Except.bind, pure, Except.pure]
      cases Fat.rootContent data vol with
      | error e => rfl
      | ok root =>
          have hwalk := @walkFat_eq data vol steps hsteps frames ⟨[], []⟩ none [] root
          simp only
          rw [show walkFat data vol steps frames ⟨[], []⟩ [] root = _ from hwalk]
          cases walk Exc.tooDeep (Fat.look data vol) frames ⟨[], []⟩
            (Fat.listing none [] root) <;> rfl

end Fat

/-! ## ADF -/

/-- `_signed_be32`. -/
def getSignedBe32 (data : Bytes) (offset : ℕ) : Except Exc ℤ :=
  if offset + 4 ≤ data.length then .ok (Adf.signedBe32 data offset)
  else .error (.unpack 4 offset data.length)

/-- `bstr`. -/
def bstr (value : Bytes) (offset : ℕ) : Except Exc PyStr := do
  let length ← getU8 value offset
  if length > 107 ∨ offset + 1 + length > value.length then
    .error (.diskImage "invalid ADF counted string")
  else return Partitions.latin1 (slice value (offset + 1) (offset + 1 + length))

/-- The payload of a data block. -/
def payload (variant : AdfVariant) (headerKey : ℕ) (value : Bytes) : Except Exc Bytes :=
  match variant with
  | .ffs => .ok value
  | .ofs => do
      let foreign ← either ((getBe32 value 0).map fun kind => decide (kind ≠ 8))
        ((getBe32 value 4).map fun owner => decide (owner ≠ headerKey))
      if foreign then .error (.diskImage "invalid OFS data block")
      else do
        let count ← getBe32 value 12
        let damaged ← either (.ok (decide (count > 488))) ((validChecksum value).map (!·))
        if damaged then .error (.diskImage "invalid OFS data block size/checksum")
        else return slice value 24 (24 + count)

section Adf

variable (data : Bytes) (variant : AdfVariant)

/-- The `for` loop of `file_data`. -/
def fileBlocks (headerKey size : ℕ) : List ℕ → List ℕ → Bytes → Except Exc Bytes
  | [], _, out =>
      if out.length ≠ size then .error (.diskImage "truncated ADF file") else .ok out
  | key :: rest, seen, out =>
      if key ∈ seen then .error (.diskImage "cyclic ADF file block list")
      else do
        let value ← Adf.block data key
        let out := out ++ (← payload variant headerKey value)
        if out.length ≥ size then return out.take size
        else fileBlocks headerKey size rest (key :: seen) out

/-- `file_data`. -/
def fileData (header : Bytes) (headerKey : ℕ) : Except Exc Bytes := do
  let size ← getBe32 header 324
  let pointers ← (List.range 72).mapM fun i => getBe32 header (24 + 4 * i)
  fileBlocks data variant headerKey size (pointers.reverse.filter (· ≠ 0)) [] []

/-- The `while` loop of `walk_directory`.  `descend` is the recursive call. -/
def walkChain (descend : Adf.WalkState → PyStr → Bytes → Except Exc Adf.WalkState)
    (head : PyStr) : ℕ → List ℕ → Adf.WalkState → ℕ → Except Exc Adf.WalkState
  | steps, chainSeen, state, key =>
      if key = 0 then .ok state
      else match steps with
        | 0 => .error .unending
        | steps + 1 =>
            if key ∈ chainSeen ∨ key ∈ state.visited then
              .error (.diskImage "cyclic ADF directory hash chain")
            else do
              let state := { state with visited := key :: state.visited }
              let header ← Adf.block data key
              let damaged ← either ((getBe32 header 0).map fun type => decide (type ≠ 2))
                ((validChecksum header).map (!·))
              if damaged then .error (.diskImage "invalid ADF entry header")
              else do
                let kind ← getSignedBe32 header 508
                let name ← bstr header 432
                if name = [] ∨ 0x2F ∈ name ∨ 0x5C ∈ name ∨ name ∈ PyStr.dots then
                  .error (.diskImage "unsafe ADF entry name")
                else do
                  let logical := PyStr.under head name
                  let state ←
                    if kind = 2 then descend state logical header
                    else if kind = -3 then do
                      let content ← fileData data variant header key
                      let entry : DiskEntry := ⟨logical, content, state.entries.length⟩
                      pure { state with entries := state.entries ++ [entry] }
                    else .error (.diskImage "unsupported ADF entry type")
                  let next ← getBe32 header 496
                  walkChain descend head steps (key :: chainSeen) state next

/-- `walk_directory`. -/
def walkAdf (steps : ℕ) : ℕ → Adf.WalkState → PyStr → Bytes → Except Exc Adf.WalkState
  | 0, _, _, _ => .error .tooDeep
  | frames + 1, state, head, directory =>
      (List.range 72).foldlM (fun state bucket => do
        let key ← getBe32 directory (24 + bucket * 4)
        walkChain data variant (walkAdf steps frames) head steps [] state key) state

end Adf

/-- The variant of a file of the standard size, by its DOS type. -/
def variantOf (data : Bytes) : Except Exc (Option AdfVariant) :=
  if data.length ≠ Adf.standardSize ∨ data.take 3 ≠ ascii "DOS" then .ok none
  else do
    let dosType ← getU8 data 3
    if dosType = 0 then return some .ofs
    else if dosType = 1 then return some .ffs
    else return none

/-- `_parse_adf`. -/
def parseAdf (frames steps : ℕ) (data : Bytes) : Except Exc (Option DiskImage) := do
  match ← variantOf data with
  | none => return none
  | some variant => do
      let root ← Adf.block data Adf.rootKey
      let foreign ← either ((getBe32 root 0).map fun type => decide (type ≠ 2))
        ((getSignedBe32 root 508).map fun kind => decide (kind ≠ 1))
      if foreign then return none
      else do
        let valid ← validChecksum root
        if valid = false then .error (.diskImage "invalid ADF root block checksum")
        else do
          let final ← walkAdf data variant steps frames ⟨[], [Adf.rootKey]⟩ [] root
          let name ← bstr root 432
          return some
            { format := "amiga-adf"
              filesystem := .adf variant
              label := if name = [] then none else some name
              entries := final.entries }

/-! ### Nothing happens to the ADF reader -/

section Adf

variable {data : Bytes} {variant : AdfVariant} {steps : ℕ}

lemma either_ok (first second : Bool) :
    either (.ok first) (.ok second) = .ok (first || second) := by
  cases first <;> rfl

lemma bstr_eq {value : Bytes} (h : value.length = 512) : bstr value 432 = Adf.bstr value 432 := by
  unfold bstr Adf.bstr
  rw [getU8_of_lt (by omega)]
  rfl

lemma payload_eq {value : Bytes} (h : value.length = 512) (headerKey : ℕ) :
    payload variant headerKey value = Adf.payload variant headerKey value := by
  cases variant with
  | ffs => rfl
  | ofs =>
      unfold payload Adf.payload
      rw [getBe32_of_le (by omega), getBe32_of_le (by omega), getBe32_of_le (by omega),
        validChecksum_of_block h]
      simp only [Except.map, bind, Except.bind, either_ok, Bool.or_eq_true, decide_eq_true_eq,
        Bool.not_eq_true']
      rfl

lemma fileBlocks_eq (hsize : data.length = Adf.standardSize) {headerKey size : ℕ} (keys : List ℕ)
    (seen : List ℕ) (out : Bytes) :
    fileBlocks data variant headerKey size keys seen out =
      Adf.fileBlocks data variant headerKey size keys seen out := by
  induction keys generalizing seen out with
  | nil => rfl
  | cons key rest ih =>
      rw [fileBlocks, Adf.fileBlocks]
      refine if_congr Iff.rfl rfl ?_
      by_cases hin : key < 2 ∨ key ≥ Adf.blocks
      · rw [Adf.block, if_pos hin]
        rfl
      · have hlength : (Adf.blockAt data key).length = 512 := by
          refine Adf.length_blockAt hsize ?_
          omega
        rw [Adf.block, if_neg hin]
        simp only [bind, Except.bind]
        rw [payload_eq hlength]
        refine bind_congr fun content => if_congr Iff.rfl rfl (ih _ _)

lemma fileData_eq (hsize : data.length = Adf.standardSize) {header : Bytes}
    (hheader : header.length = 512) (headerKey : ℕ) :
    fileData data variant header headerKey = Adf.fileData data variant header headerKey := by
  have hpointers : ((List.range 72).mapM fun i => getBe32 header (24 + 4 * i)) =
      .ok ((List.range 72).map fun i => be32 header (24 + 4 * i)) := by
    refine (Fallible.mapM_eq_ok_iff_map (g := fun i => be32 header (24 + 4 * i)) ?_).2 ⟨rfl, ?_⟩
    all_goals
      intro i hi
      have hlt := List.mem_range.1 hi
      rw [getBe32_of_le (by omega)]
    · intro value hvalue
      exact (Except.ok.inj hvalue).symm
  unfold fileData Adf.fileData
  rw [getBe32_of_le (by omega), hpointers]
  exact fileBlocks_eq hsize _ _ _

/-- A look at a key that is new and inside the image. -/
lemma look_of_new {state : Adf.WalkState} {key : ℕ} {head : PyStr} (hvisited : key ∉ state.visited)
    (hout : ¬(key < 2 ∨ key ≥ Adf.blocks)) :
    Adf.look data variant state ⟨key, head⟩ =
      if be32 (Adf.blockAt data key) 0 ≠ 2 ∨ Adf.blockChecksum (Adf.blockAt data key) = false then
        .error (.diskImage "invalid ADF entry header")
      else Adf.bstr (Adf.blockAt data key) 432 >>= fun name =>
        if name = [] ∨ 0x2F ∈ name ∨ 0x5C ∈ name ∨ name ∈ PyStr.dots then
          .error (.diskImage "unsafe ADF entry name")
        else if Adf.signedBe32 (Adf.blockAt data key) 508 = 2 then
          .ok (.enter ⟨state.entries, key :: state.visited⟩
            (Adf.listing data (PyStr.under head name) (Adf.blockAt data key)))
        else if Adf.signedBe32 (Adf.blockAt data key) 508 = -3 then
          Adf.fileData data variant (Adf.blockAt data key) key >>= fun content =>
            .ok (.stay ⟨state.entries ++ [⟨PyStr.under head name, content, state.entries.length⟩],
              key :: state.visited⟩)
        else .error (.diskImage "unsupported ADF entry type") := by
  rw [Adf.look, if_neg hvisited, Adf.block, if_neg hout]
  rfl

/-- A look that succeeds has visited the key. -/
lemma visited_of_look {state : Adf.WalkState} {item : Adf.Item} {turn : Turn Adf.WalkState Adf.Item}
    (h : Adf.look data variant state item = .ok turn) :
    (∃ state', turn = .stay state' ∧ state'.visited = item.key :: state.visited) ∨
      ∃ state' inner, turn = .enter state' inner ∧ state'.visited = item.key :: state.visited := by
  unfold Adf.look at h
  split at h
  · cases h
  obtain ⟨header, -, h⟩ := Fallible.bind_eq_ok.1 h
  split at h
  · cases h
  obtain ⟨name, -, h⟩ := Fallible.bind_eq_ok.1 h
  split at h
  · cases h
  split at h
  · cases h
    exact .inr ⟨_, _, rfl, rfl⟩
  split at h
  · obtain ⟨content, -, h⟩ := Fallible.bind_eq_ok.1 h
    cases h
    exact .inl ⟨_, rfl, rfl⟩
  · cases h

/-- A walk forgets no key. -/
lemma visited_subset {frames : ℕ} {state final : Adf.WalkState} {items : List Adf.Item}
    (h : walk Exc.tooDeep (Adf.look data variant) frames state items = .ok final) :
    state.visited ⊆ final.visited := by
  refine (done_of_walk h).invariant (I := fun s => state.visited ⊆ s.visited) ?_ ?_
    (List.Subset.refl _)
  · intro s s' item hs hlook
    rcases visited_of_look hlook with ⟨_, hturn, hvisited⟩ | ⟨_, _, hturn, -⟩
    · cases hturn
      rw [hvisited]
      exact List.subset_cons_of_subset _ hs
    · cases hturn
  · intro s s' item inner hs hlook
    rcases visited_of_look hlook with ⟨_, hturn, -⟩ | ⟨_, _, hturn, hvisited⟩
    · cases hturn
    · cases hturn
      rw [hvisited]
      exact List.subset_cons_of_subset _ hs

/-- The keys a hash chain has come to. -/
structure ChainSeen (chainSeen : List ℕ) (state : Adf.WalkState) : Prop where
  distinct : chainSeen.Nodup
  inside : ∀ key ∈ chainSeen, 2 ≤ key ∧ key < Adf.blocks
  visited : chainSeen ⊆ state.visited

lemma ChainSeen.cons {chainSeen : List ℕ} {state state' : Adf.WalkState} {key : ℕ}
    (h : ChainSeen chainSeen state) (hkey : key ∉ state.visited)
    (hinside : ¬(key < 2 ∨ key ≥ Adf.blocks)) (hvisited : key :: state.visited ⊆ state'.visited) :
    ChainSeen (key :: chainSeen) state' where
  distinct := List.nodup_cons.2 ⟨fun hmem => hkey (h.visited hmem), h.distinct⟩
  inside := List.forall_mem_cons.2 ⟨by omega, h.inside⟩
  visited := List.Subset.trans (List.cons_subset_cons _ h.visited) hvisited

/-- A hash chain that is followed key by key is the list of its keys: it has come to a key again
long before its steps, or the places of that list, are used up. -/
lemma walkChain_eq (hsize : data.length = Adf.standardSize) {frames : ℕ}
    {descend : Adf.WalkState → PyStr → Bytes → Except Exc Adf.WalkState}
    (hdescend : ∀ state head header, header.length = 512 → descend state head header =
      walk Exc.tooDeep (Adf.look data variant) frames state (Adf.listing data head header))
    (head : PyStr) {chainSeen : List ℕ} {state : Adf.WalkState} {key remaining : ℕ}
    (hseen : ChainSeen chainSeen state) (hsteps : Adf.blocks < steps + chainSeen.length)
    (hremaining : remaining + chainSeen.length = Adf.blocks) :
    walkChain data variant descend head steps chainSeen state key =
      walk Exc.tooDeep (Adf.look data variant) (frames + 1) state
        ((Adf.chainKeys data remaining key).map fun key => ⟨key, head⟩) := by
  induction steps generalizing chainSeen state key remaining with
  | zero =>
      have := Adf.length_le_blocks hseen.inside hseen.distinct
      omega
  | succ steps ih =>
      by_cases hzero : key = 0
      · rw [walkChain, if_pos hzero, hzero, Adf.chainKeys_zero]
        rfl
      obtain ⟨rest, hrest, hnext⟩ : ∃ rest, Adf.chainKeys data remaining key = key :: rest ∧
          (key ∉ state.visited → ¬(key < 2 ∨ key ≥ Adf.blocks) → ∃ fewer,
            fewer + (key :: chainSeen).length = Adf.blocks ∧
              rest = Adf.chainKeys data fewer (be32 (Adf.blockAt data key) 496)) := by
        cases remaining with
        | zero =>
            refine ⟨[], by rw [Adf.chainKeys, if_neg hzero], fun hnew hin => ?_⟩
            have hmore := @ChainSeen.cons _ _ ⟨state.entries, key :: state.visited⟩ _ hseen hnew hin
              (List.Subset.refl _)
            have := Adf.length_le_blocks hmore.inside hmore.distinct
            simp only [List.length_cons] at this
            omega
        | succ fewer =>
            refine ⟨_, by rw [Adf.chainKeys, if_neg hzero], fun hnew hin => ⟨fewer, ?_, if_neg hin⟩⟩
            rw [List.length_cons]
            omega
      rw [walkChain, if_neg hzero, hrest, List.map_cons]
      simp only
      by_cases hvisited : key ∈ state.visited
      · have hlook : Adf.look data variant state ⟨key, head⟩ =
            .error (.diskImage "cyclic ADF directory hash chain") := if_pos hvisited
        rw [if_pos (.inr hvisited), walk_cons_error _ hlook]
      rw [if_neg (not_or.2 ⟨fun hmem => hvisited (hseen.visited hmem), hvisited⟩)]
      by_cases hout : key < 2 ∨ key ≥ Adf.blocks
      · have hlook : Adf.look data variant state ⟨key, head⟩ =
            .error (.diskImage "ADF block pointer lies outside image") := by
          rw [Adf.look, if_neg hvisited, Adf.block, if_pos hout]
          rfl
        rw [walk_cons_error _ hlook, Adf.block, if_pos hout]
        rfl
      obtain ⟨fewer, hfewer, rfl⟩ := hnext hvisited hout
      have hlength : (Adf.blockAt data key).length = 512 := Adf.length_blockAt hsize (by omega)
      have hblock : Adf.block data key = .ok (Adf.blockAt data key) := if_neg hout
      set header := Adf.blockAt data key with hheader
      have hkind : getSignedBe32 header 508 = .ok (Adf.signedBe32 header 508) :=
        if_pos (by omega)
      have htype : getBe32 header 0 = .ok (be32 header 0) := getBe32_of_le (by omega)
      have hlast : getBe32 header 496 = .ok (be32 header 496) := getBe32_of_le (by omega)
      simp only [hblock, bind, Except.bind, Except.map, htype, hlast, hkind,
        validChecksum_of_block hlength, bstr_eq hlength, fileData_eq hsize hlength, either_ok,
        Bool.or_eq_true, decide_eq_true_eq, Bool.not_eq_true', pure, Except.pure]
      -- what follows the entry, once it has been dealt with
      have hfollow : ∀ state', key :: state.visited ⊆ state'.visited →
          walkChain data variant descend head steps (key :: chainSeen) state' (be32 header 496) =
            walk Exc.tooDeep (Adf.look data variant) (frames + 1) state'
              ((Adf.chainKeys data fewer (be32 header 496)).map fun key => ⟨key, head⟩) :=
        fun state' hsub => ih (hseen.cons hvisited hout hsub)
          (by rw [List.length_cons]; omega) hfewer
      have hlook := @look_of_new data variant state key head hvisited hout
      simp only [bind, Except.bind] at hlook
      by_cases hdamaged : be32 header 0 ≠ 2 ∨ Adf.blockChecksum header = false
      · rw [if_pos hdamaged] at hlook
        rw [if_pos hdamaged, walk_cons_error _ hlook]
      rw [if_neg hdamaged] at hlook
      rw [if_neg hdamaged]
      cases hname : Adf.bstr header 432 with
      | error e =>
          rw [hname] at hlook
          rw [walk_cons_error _ hlook]
      | ok name =>
      rw [hname] at hlook
      simp only at hlook ⊢
      by_cases hunsafe : name = [] ∨ 0x2F ∈ name ∨ 0x5C ∈ name ∨ name ∈ PyStr.dots
      · rw [if_pos hunsafe] at hlook
        rw [if_pos hunsafe, walk_cons_error _ hlook]
      rw [if_neg hunsafe] at hlook
      rw [if_neg hunsafe]
      by_cases hdrawer : Adf.signedBe32 header 508 = 2
      · rw [if_pos hdrawer] at hlook
        rw [if_pos hdrawer, walk_cons_enter _ hlook, hdescend _ _ _ hlength]
        cases hinner : walk Exc.tooDeep (Adf.look data variant) frames
            ⟨state.entries, key :: state.visited⟩
            (Adf.listing data (PyStr.under head name) header) with
        | error e => rfl
        | ok inside => exact hfollow inside (visited_subset hinner)
      rw [if_neg hdrawer] at hlook
      rw [if_neg hdrawer]
      by_cases hfile : Adf.signedBe32 header 508 = -3
      · rw [if_pos hfile] at hlook
        rw [if_pos hfile]
        cases hcontent : Adf.fileData data variant header key with
        | error e =>
            rw [hcontent] at hlook
            rw [walk_cons_error _ hlook]
        | ok content =>
            rw [hcontent] at hlook
            rw [walk_cons_stay _ hlook]
            exact hfollow _ (List.Subset.refl _)
      · rw [if_neg hfile] at hlook
        rw [if_neg hfile, walk_cons_error _ hlook]

/-- The walk of the source is the one on the keys of the hash tables. -/
lemma walkAdf_eq (hsize : data.length = Adf.standardSize) (hsteps : Adf.blocks < steps)
    (frames : ℕ) (state : Adf.WalkState) (head : PyStr) {directory : Bytes}
    (hdirectory : directory.length = 512) :
    walkAdf data variant steps frames state head directory =
      walk Exc.tooDeep (Adf.look data variant) frames state
        (Adf.listing data head directory) := by
  induction frames generalizing state head directory with
  | zero => rfl
  | succ frames ih =>
      have hbuckets : ∀ buckets : List ℕ, (∀ bucket ∈ buckets, bucket < 72) → ∀ state,
          buckets.foldlM (fun state bucket => do
            let key ← getBe32 directory (24 + bucket * 4)
            walkChain data variant (walkAdf data variant steps frames) head steps [] state key)
            state = walk Exc.tooDeep (Adf.look data variant) (frames + 1) state
              ((buckets.flatMap fun bucket => Adf.chainKeys data Adf.blocks
                (be32 directory (24 + bucket * 4))).map fun key => ⟨key, head⟩) := by
        intro buckets hin
        induction buckets with
        | nil => exact fun _ => rfl
        | cons bucket buckets ihbuckets =>
            intro state
            have hbucket := hin bucket List.mem_cons_self
            rw [List.foldlM_cons, List.flatMap_cons, List.map_append, walk_append,
              getBe32_of_le (by omega)]
            have hchain := @walkChain_eq data variant steps hsize frames _
              (fun state head header hheader => ih state head hheader) head [] state
              (be32 directory (24 + bucket * 4)) Adf.blocks ⟨.nil, by simp, by simp⟩
              (by simpa using hsteps) (by simp)
            simp only [bind, Except.bind]
            rw [hchain]
            cases walk Exc.tooDeep (Adf.look data variant) (frames + 1) state
              ((Adf.chainKeys data Adf.blocks (be32 directory (24 + bucket * 4))).map
                fun key => ⟨key, head⟩) with
            | error e => rfl
            | ok state' => exact ihbuckets (fun b hb => hin b (List.mem_cons_of_mem _ hb)) state'
      exact hbuckets (List.range 72) (fun bucket hb => List.mem_range.1 hb) state

lemma variantOf_eq (data : Bytes) : variantOf data = .ok (Adf.variantOf data) := by
  unfold variantOf Adf.variantOf
  split
  · rfl
  · next hhead =>
      have hlength : data.length = Adf.standardSize := not_not.1 (not_or.1 hhead).1
      rw [getU8_of_lt (by rw [hlength]; decide)]
      simp only [bind, Except.bind, pure, Except.pure]
      split_ifs <;> rfl

/-- A variant is only found in a file of the standard size. -/
lemma standardSize_of_variantOf (h : Adf.variantOf data = some variant) :
    data.length = Adf.standardSize := by
  unfold Adf.variantOf at h
  split at h
  · cases h
  · next hhead => exact not_not.1 (not_or.1 hhead).1

/-- With steps for all blocks the ADF reader makes no read past a buffer and gives no loop up. -/
theorem parseAdf_eq (frames : ℕ) {steps : ℕ} (hsteps : Adf.blocks < steps) (data : Bytes) :
    parseAdf frames steps data = Adf.parse frames data := by
  unfold parseAdf Adf.parse
  rw [variantOf_eq]
  cases hvariant : Adf.variantOf data with
  | none => rfl
  | some variant =>
      have hsize := standardSize_of_variantOf hvariant
      have hroot : (Adf.blockAt data Adf.rootKey).length = 512 :=
        Adf.length_blockAt hsize (by decide)
      have hblock : Adf.block data Adf.rootKey = .ok (Adf.blockAt data Adf.rootKey) :=
        if_neg (by decide)
      have htype := @getBe32_of_le (Adf.blockAt data Adf.rootKey) 0 (by omega)
      have hkind : getSignedBe32 (Adf.blockAt data Adf.rootKey) 508 =
          .ok (Adf.signedBe32 (Adf.blockAt data Adf.rootKey) 508) := if_pos (by omega)
      simp only [bind, Except.bind, hblock, htype, hkind, Except.map, either_ok,
        validChecksum_of_block hroot, walkAdf_eq hsize hsteps frames _ _ hroot, bstr_eq hroot,
        Bool.or_eq_true, decide_eq_true_eq]

end Adf

end DiskReads

end AVBox
