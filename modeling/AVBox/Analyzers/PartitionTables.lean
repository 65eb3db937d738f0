import AVBox.Analyzers.Containers
import AVBox.Analyzers.ExecutableErrors
import Mathlib.Data.Set.Basic

/-!
# What partition tables are taken for, and what they hold

The parsers of `Analyzers/Partitions.lean` read words of blocks that are large enough.
`parseReading` makes every such read one that may raise `struct.error` or `IndexError`, as it may
in the source, and `parseReading_eq` shows that none does.

* `kindOf_ne_partitioned_iff` says which archives are taken for partitioned disks.
* `parse_sound` says what a table that is returned looks like.
-/

namespace AVBox

open Binary Executable Fallible

namespace Partitions

/-! ## Archives that are taken for disks -/

/-- The archive signatures that `_kind` tests. -/
def archiveSignature (content : Bytes) : Prop :=
  slice content 2 5 = ascii "-lh" ∨ ascii "PK" <+: content ∨ [0x1F, 0x8B] <+: content ∨
    ascii "BZh" <+: content ∨ [0xFD, 0x37, 0x7A, 0x58, 0x5A, 0x00] <+: content ∨
    [0x37, 0x7A, 0xBC, 0xAF, 0x27, 0x1C] <+: content ∨ ascii "MSCF" <+: content ∨
    [0x60, 0xEA] <+: content

/-- The bytes from 446 on hold a row of an MBR. -/
def HasPlausibleRow (content : Bytes) : Prop :=
  512 ≤ content.length ∧ ∃ row ∈ mbrRows content, plausibleRow row = true

lemma mbrRows_sector (content : Bytes) : mbrRows (slice content 0 512) = mbrRows content := by
  refine List.map_congr_left fun index hindex => slice_take ?_
  have hlt := List.mem_range.1 hindex
  omega

/-- Without an RDB and without the signature, a row is all it takes to be a table. -/
lemma parse_eq_none_iff {content : Bytes} {maxPartitions : ℕ} (hrdb : findRdb content = none)
    (hsignature : slice content 510 512 ≠ [0x55, 0xAA]) :
    parse content maxPartitions = .ok none ↔ ¬HasPlausibleRow content := by
  have hparse : parse content maxPartitions = parseMbr content maxPartitions := by
    unfold parse parseRdb
    rw [hrdb]
    rfl
  rw [hparse, HasPlausibleRow, ← mbrRows_sector]
  unfold parseMbr
  split
  · next hshort => exact iff_of_true rfl fun h => by omega
  · next hlong =>
      dsimp only
      split
      · next hnone =>
          refine iff_of_true rfl ?_
          rintro ⟨-, row, hrow, hlikely⟩
          have hfalse := List.all_eq_true.1 hnone row hrow
          simp [hlikely] at hfalse
      · next hsome =>
          rw [slice_take (Nat.le_refl _), if_pos hsignature]
          refine iff_of_false (by simp) (not_not.2 ⟨by omega, ?_⟩)
          by_contra hnot
          push Not at hnot
          refine hsome (List.all_eq_true.2 fun row hrow => ?_)
          simpa using hnot row hrow

/-- No other test of `_kind` finds a partitioned disk. -/
lemma archiveKind_ne (env : ExtractEnv) (content : Bytes) :
    ContainerAnalyzer.archiveKind env content ≠ .ok (some .partitionedDisk) := by
  have hmagic (header : Bytes) : ContainerAnalyzer.magicKind header ≠ some .partitionedDisk := by
    unfold ContainerAnalyzer.magicKind
    split_ifs <;> simp
  have hyields : Yields (fun kind => kind ≠ some .partitionedDisk)
      (ContainerAnalyzer.archiveKind env content) := by
    unfold ContainerAnalyzer.archiveKind
    refine .bind fun found _ => .ite (fun _ => .ok (by simp)) fun _ => ?_
    refine .ite (fun _ => .ok (by simp)) fun _ => .ite (fun _ => .ok (by simp)) fun _ => ?_
    split
    · exact .ok (by simp)
    · exact .ok (hmagic _)
    · exact .ite (fun _ => .ok (hmagic _)) fun _ => .error _
  exact fun h => hyields _ h rfl

lemma kindOf_eq_partitioned_iff (env : ExtractEnv) (content : Bytes) :
    ContainerAnalyzer.kindOf env content = .ok (some .partitionedDisk) ↔
      parse content 32 ≠ .ok none := by
  unfold ContainerAnalyzer.kindOf
  dsimp only
  split
  · next htable => exact iff_of_true rfl htable
  · next htable =>
      refine iff_of_false ?_ htable
      split
      · simp
      split
      · next image _ => cases decide (image.format = "amiga-adf") <;> simp
      · exact archiveKind_ne env content
      · next exc _ =>
          split
          · simp only [Except.ok.injEq, Option.some.injEq]
            split <;> simp
          · simp

/-- A file without an RDB and without the boot signature, an archive or not, is taken for a
partitioned disk exactly when its bytes from 446 on can be read as a row of an MBR. -/
theorem kindOf_ne_partitioned_iff (env : ExtractEnv) (content : Bytes)
    (hrdb : findRdb content = none) (hsignature : slice content 510 512 ≠ [0x55, 0xAA]) :
    ContainerAnalyzer.kindOf env content ≠ .ok (some .partitionedDisk) ↔
      ¬HasPlausibleRow content := by
  rw [← parse_eq_none_iff hrdb hsignature, ne_eq, kindOf_eq_partitioned_iff, not_not]

/-- A gzip file whose byte 450 is a partition type and whose byte 458 is a length. -/
def shadowedGzip : Bytes :=
  [0x1F, 0x8B, 0x08] ++ List.replicate 447 0 ++ [0x83] ++ List.replicate 7 0 ++ [0x01] ++
    List.replicate 53 0

lemma shadowedGzip_row : plausibleRow (slice shadowedGzip 446 462) = true := by decide +kernel

lemma shadowedGzip_rdb : findRdb shadowedGzip = none := by decide +kernel

/-- A gzip file of the same length without them. -/
def clearGzip : Bytes := [0x1F, 0x8B, 0x08] ++ List.replicate 509 0

theorem kindOf_ne_partitioned_gzip :
    archiveSignature clearGzip ∧
      ContainerAnalyzer.kindOf .plain clearGzip ≠ .ok (some .partitionedDisk) := by
  refine ⟨.inr (.inr (.inl ⟨_, rfl⟩)),
    (kindOf_ne_partitioned_iff .plain clearGzip (by decide +kernel) (by decide +kernel)).2 ?_⟩
  rintro ⟨-, row, hrow, hplausible⟩
  have hnone : ∀ row ∈ mbrRows clearGzip, plausibleRow row = false := by decide +kernel
  rw [hnone row hrow] at hplausible
  cases hplausible

theorem shadowedGzip_partitioned :
    ¬∀ content : Bytes, archiveSignature content → findRdb content = none →
      slice content 510 512 ≠ [0x55, 0xAA] →
        ContainerAnalyzer.kindOf .plain content ≠ .ok (some .partitionedDisk) := by
  intro h
  refine h shadowedGzip ?_ shadowedGzip_rdb (by decide +kernel) ?_
  · exact .inr (.inr (.inl ⟨_, rfl⟩))
  · have hrow : HasPlausibleRow shadowedGzip :=
      ⟨by decide +kernel, _, List.mem_map.2 ⟨0, by decide, rfl⟩, shadowedGzip_row⟩
    refine (kindOf_eq_partitioned_iff _ _).2 fun hnone => ?_
    exact (parse_eq_none_iff shadowedGzip_rdb (by decide +kernel)).1 hnone hrow

/-! ## The parser with its reads -/

/-- What `_parse_mbr` reads of a row. -/
def readRow (row : Bytes) : Except Exc Unit := do
  let _ ← byteAt row 4
  let _ ← byteAt row 0
  let _ ← unpackFrom row 12 4 ()
  unpackFrom row 8 8 ()

/-- `_parse_mbr`. -/
def parseMbrReading (image : Bytes) (maxPartitions : ℕ) : Except Exc (Option PartitionTable) := do
  if image.length < 512 then return none
  (mbrRows (slice image 0 512)).forM readRow
  parseMbr image maxPartitions

/-- `_valid_rdb_checksum`. -/
def validChecksumReading (block : Bytes) : Except Exc Bool := do
  if block.length < 24 then return false
  let count ← unpackFrom block 4 4 (be32 block 4)
  if count < 6 ∨ count > block.length / 4 then return false
  unpackFrom block 0 (count * 4) (validRdbChecksum block)

/-- What `_parse_rdb` reads of a PART block. -/
def readPart (block : Bytes) : Except Exc Unit := do
  let _ ← byteAt block 36
  let _ ← unpackFrom block 140 4 ()
  let _ ← unpackFrom block 148 4 ()
  let _ ← unpackFrom block 164 4 ()
  let _ ← unpackFrom block 168 4 ()
  let _ ← byteAt (slice block 192 196) 3
  let _ ← unpackFrom block 188 4 ()
  unpackFrom block 16 4 ()

/-- The chain of PART blocks. -/
def rdbChainReading (image : Bytes) (blockSize : ℕ) :
    ℕ → List ℕ → ℕ → List Partition → List String → Except Exc (List Partition × List String)
  | remaining, seen, pointer, partitions, errors =>
    if pointer = 0xFFFFFFFF then .ok (partitions, errors)
    else if pointer ∈ seen then .ok (partitions, errors ++ ["RDB partition pointer cycle"])
    else match remaining with
      | 0 => .ok (partitions, errors ++ ["partition count exceeds server maximum"])
      | remaining + 1 =>
        let offset := pointer * blockSize
        if offset > image.length ∨ blockSize > image.length - offset then
          .ok (partitions, errors ++ ["RDB partition pointer lies outside image"])
        else do
          let block := slice image offset (offset + blockSize)
          let valid ← validChecksumReading block
          if slice block 0 4 ≠ [0x50, 0x41, 0x52, 0x54] ∨ valid = false then
            return (partitions, errors ++ [s!"invalid RDB PART block at {pointer}"])
          else
            readPart block
            match rdbPartition image.length blockSize partitions.length block with
            | .error error =>
                rdbChainReading image blockSize remaining (pointer :: seen) (be32 block 16)
                  partitions (errors ++ [error])
            | .ok partition =>
                rdbChainReading image blockSize remaining (pointer :: seen) (be32 block 16)
                  (partitions ++ [partition]) errors

/-- `_parse_rdb`. -/
def parseRdbReading (image : Bytes) (maxPartitions : ℕ) : Except Exc (Option PartitionTable) :=
  match findRdb image with
  | none => .ok none
  | some rdb => do
      let valid ← validChecksumReading rdb
      if valid = false then throw (.partitionTable "invalid RDB checksum")
      let blockSize ← unpackFrom rdb 16 4 (be32 rdb 16)
      if validBlockSize blockSize = false then
        throw (.partitionTable "invalid RDB block size")
      let pointer ← unpackFrom rdb 28 4 (be32 rdb 28)
      let (partitions, errors) ← rdbChainReading image blockSize maxPartitions [] pointer [] []
      return some
        { scheme := "RDB"
          partitions := partitions
          errors := errors ++ overlaps partitions }

/-- `parse_partition_table`, with every read that may raise. -/
def parseReading (image : Bytes) (maxPartitions : ℕ) : Except Exc (Option PartitionTable) := do
  match ← parseRdbReading image maxPartitions with
  | some table => return some table
  | none => parseMbrReading image maxPartitions

lemma readRow_eq {row : Bytes} (h : row.length = 16) : readRow row = .ok () := by
  unfold readRow
  rw [byteAt_of_lt (by omega), byteAt_of_lt (by omega), unpackFrom_of_fits _ (by omega),
    unpackFrom_of_fits _ (by omega)]
  rfl

lemma parseMbrReading_eq (image : Bytes) (maxPartitions : ℕ) :
    parseMbrReading image maxPartitions = parseMbr image maxPartitions := by
  unfold parseMbrReading
  split
  · next hshort =>
      unfold parseMbr
      rw [if_pos hshort]
      rfl
  · next hlong =>
      have hrows : ∀ row ∈ mbrRows (slice image 0 512), readRow row = .ok () := by
        intro row hrow
        obtain ⟨index, hindex, rfl⟩ := List.mem_map.1 hrow
        have hlt := List.mem_range.1 hindex
        refine readRow_eq ?_
        rw [length_slice, length_slice]
        omega
      have hforM : (mbrRows (slice image 0 512)).forM readRow = .ok () := by
        generalize mbrRows (slice image 0 512) = rows at hrows
        induction rows with
        | nil => rfl
        | cons row rows ih =>
            have hrest := ih fun other hother => hrows other (List.mem_cons_of_mem _ hother)
            calc (row :: rows).forM readRow
                = readRow row >>= fun _ => rows.forM readRow := rfl
              _ = .ok () := by
                rw [hrows row List.mem_cons_self]
                exact hrest
      rw [hforM]
      rfl

lemma validChecksumReading_eq (block : Bytes) :
    validChecksumReading block = .ok (validRdbChecksum block) := by
  unfold validChecksumReading
  split
  · next hshort =>
      unfold validRdbChecksum
      rw [if_pos hshort]
      rfl
  · next hlong =>
      rw [unpackFrom_bind (by omega)]
      split
      · next hcount =>
          unfold validRdbChecksum
          rw [if_neg hlong, if_pos hcount]
          rfl
      · next hcount => exact unpackFrom_of_fits _ (by omega)

lemma readPart_eq {block : Bytes} (h : 512 ≤ block.length) : readPart block = .ok () := by
  have hdostype : 3 < (slice block 192 196).length := by
    rw [length_slice]
    omega
  unfold readPart
  rw [byteAt_of_lt (by omega), byteAt_of_lt hdostype, unpackFrom_of_fits _ (by omega),
    unpackFrom_of_fits _ (by omega), unpackFrom_of_fits _ (by omega),
    unpackFrom_of_fits _ (by omega), unpackFrom_of_fits _ (by omega),
    unpackFrom_of_fits _ (by omega)]
  rfl

lemma rdbChainReading_eq {image : Bytes} {blockSize : ℕ} (hblock : 512 ≤ blockSize)
    (remaining : ℕ) (seen : List ℕ) (pointer : ℕ) (partitions : List Partition)
    (errors : List String) :
    rdbChainReading image blockSize remaining seen pointer partitions errors =
      .ok (rdbChain image blockSize remaining seen pointer partitions errors) := by
  induction remaining generalizing seen pointer partitions errors with
  | zero =>
      unfold rdbChainReading rdbChain
      split_ifs <;> rfl
  | succ remaining ih =>
      unfold rdbChainReading rdbChain
      dsimp only
      split
      · rfl
      split
      · rfl
      split
      · rfl
      next hinside =>
      have hlength : (slice image (pointer * blockSize) (pointer * blockSize + blockSize)).length =
          blockSize := length_slice_of_le (by omega)
      rw [validChecksumReading_eq, readPart_eq (by omega)]
      dsimp only [bind, Except.bind]
      split
      · rfl
      cases rdbPartition image.length blockSize partitions.length
          (slice image (pointer * blockSize) (pointer * blockSize + blockSize)) with
      | error error => exact ih _ _ _ _
      | ok partition => exact ih _ _ _ _

lemma findRdb_length {image rdb : Bytes} (h : findRdb image = some rdb) : rdb.length = 512 := by
  obtain ⟨index, hindex, rfl⟩ := List.mem_map.1 (List.mem_of_find?_eq_some h)
  have hlt := List.mem_range.1 hindex
  exact length_slice_of_le (by omega)

/-- No read of the parser raises. -/
theorem parseReading_eq (image : Bytes) (maxPartitions : ℕ) :
    parseReading image maxPartitions = parse image maxPartitions := by
  have hrdb : parseRdbReading image maxPartitions = parseRdb image maxPartitions := by
    unfold parseRdbReading parseRdb
    cases hfound : findRdb image with
    | none => rfl
    | some rdb =>
        have hlength := findRdb_length hfound
        dsimp only
        rw [validChecksumReading_eq, unpackFrom_of_fits _ (by omega),
          unpackFrom_of_fits _ (by omega)]
        dsimp only [bind, Except.bind]
        split
        · rfl
        split
        · rfl
        next hsize =>
        rw [rdbChainReading_eq (validBlockSize_ge hsize)]
        rfl
  unfold parseReading parse
  rw [hrdb]
  cases parseRdb image maxPartitions with
  | error exc => rfl
  | ok found =>
      cases found with
      | none => exact parseMbrReading_eq image maxPartitions
      | some table => rfl

/-! ## Disjoint ranges -/

/-- The bytes of a partition. -/
def bytesOf (partition : Partition) : Set ℕ :=
  {offset | partition.start ≤ offset ∧ offset < partition.start + partition.length}

/-- One partition ends before the other starts. -/
def Before (left right : Partition) : Prop := left.start + left.length ≤ right.start

lemma Before.disjoint {left right : Partition} (h : Before left right) :
    bytesOf left ∩ bytesOf right = ∅ := by
  refine Set.eq_empty_of_forall_notMem fun offset ⟨hleft, hright⟩ => ?_
  have hend := hleft.2
  have hstart := hright.1
  unfold Before at h
  omega

/-- Neighbours that do not overlap follow one another, so do all that are further apart. -/
lemma pairwise_before {items : List Partition}
    (h : (items.zip items.tail).filterMap (fun (left, right) =>
      if right.start < left.start + left.length then
        some s!"OVERLAPPING_PARTITIONS: {left.index} and {right.index}" else none) = []) :
    items.Pairwise Before := by
  have htrans : ∀ {a b c : Partition}, Before a b → Before b c → Before a c := by
    intro a b c hab hbc
    unfold Before at *
    omega
  induction items with
  | nil => exact .nil
  | cons first items ih =>
      cases items with
      | nil => exact List.pairwise_singleton _ _
      | cons second items =>
          simp only [List.tail_cons, List.zip_cons_cons, List.filterMap_cons] at h
          split at h
          · next hnone =>
              have hbefore : Before first second := by
                unfold Before
                by_contra hnot
                rw [if_pos (by omega)] at hnone
                cases hnone
              have hrest := ih h
              refine List.pairwise_cons.2 ⟨fun other hother => ?_, hrest⟩
              rcases List.mem_cons.1 hother with rfl | hother
              · exact hbefore
              · exact htrans hbefore ((List.pairwise_cons.1 hrest).1 other hother)
          · cases h

/-- A table in which no neighbours overlap has disjoint partitions. -/
lemma disjoint_of_overlaps {partitions : List Partition} (h : overlaps partitions = []) :
    partitions.Pairwise fun a b => bytesOf a ∩ bytesOf b = ∅ := by
  have hordered : (ordered partitions).Pairwise fun a b => bytesOf a ∩ bytesOf b = ∅ :=
    (pairwise_before h).imp Before.disjoint
  exact ((List.perm_insertionSort _ partitions).pairwise_iff fun hab =>
    (Set.inter_comm _ _).trans hab).1 hordered

/-- Parsing ends, raises nothing but `PartitionTableError`, and returns tables within the limit
whose partitions lie in the image.  They are disjoint unless the table says otherwise. -/
theorem parse_sound (image : Bytes) (maxPartitions : ℕ) :
    (∀ exc, parseReading image maxPartitions = .error exc → exc.family = .partitionTableError) ∧
      ∀ table, parseReading image maxPartitions = .ok (some table) →
        table.partitions.length ≤ maxPartitions ∧
          (∀ partition ∈ table.partitions, 0 < partition.length ∧
            partition.start + partition.length ≤ image.length) ∧
          (table.errors = [] →
            table.partitions.Pairwise fun a b => bytesOf a ∩ bytesOf b = ∅) := by
  rw [parseReading_eq]
  constructor
  · suffices hraises : Raises (fun exc => exc.family = .partitionTableError)
        (parse image maxPartitions) from hraises
    unfold parse
    refine .bind ?_ fun found _ => ?_
    · unfold parseRdb
      split
      · exact .ok _
      · exact .ite (fun _ => .error rfl) fun _ => .ite (fun _ => .error rfl) fun _ => .ok _
    · cases found with
      | some table => exact .ok _
      | none =>
          unfold parseMbr
          refine .ite (fun _ => .ok _) fun _ => .ite (fun _ => .ok _) fun _ => ?_
          exact .ite (fun _ => .error rfl) fun _ => .ok _
  · intro table h
    obtain ⟨hlength, hin, hoverlaps⟩ := parse_table h
    exact ⟨hlength, fun partition hmem => ⟨(hin partition hmem).pos, (hin partition hmem).inside⟩,
      fun herrors => disjoint_of_overlaps (hoverlaps herrors)⟩

end Partitions

end AVBox
