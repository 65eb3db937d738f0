import AVBox.Lib.Binary
import AVBox.Models.Common
import Mathlib.Data.List.Sort

/-!
# Partition tables

`analyzers/partitions.py`: the MBR and Amiga RDB parsers, and the reader that is bounded to one
byte range of the image.  The metadata of a table is left out, nothing reads it.
-/

namespace AVBox

open Binary

/-- `PartitionTableError(text)`. -/
def Exc.partitionTable (text : String) : Exc :=
  ⟨.partitionTableError, "PartitionTableError", text⟩

/-- A value in the metadata of a partition. -/
inductive PartitionValue
  | number (value : ℤ)
  | flag (value : Bool)
  | text (value : String)
  | name (value : Option PyStr)
  deriving DecidableEq, Repr

structure Partition where
  index : ℕ
  start : ℕ
  length : ℕ
  type : String
  scheme : String
  name : Option PyStr
  metadata : List (String × PartitionValue)
  deriving DecidableEq, Repr

structure PartitionTable where
  scheme : String
  partitions : List Partition
  errors : List String
  deriving DecidableEq, Repr

namespace Partitions

/-! ## The bounded reader -/

/-- The constructor of `BoundedRangeReader`, and the bytes that reading it to the end yields. -/
def rangeReader (image : Bytes) (start length : ℕ) : Except Exc Bytes :=
  if start > image.length ∨ length > image.length - start then
    .error (.partitionTable "byte range lies outside root object")
  else
    .ok (slice image start (start + length))

/-- A range that the reader accepts is read in full. -/
lemma length_of_rangeReader {image content : Bytes} {start length : ℕ}
    (h : rangeReader image start length = .ok content) : content.length = length := by
  unfold rangeReader at h
  split at h
  · cases h
  · next hrange =>
      obtain rfl := Except.ok.inj h
      exact length_slice_of_le (by omega)

/-! ## Overlaps -/

/-- `sorted(partitions, key=lambda item: (item.start, item.length))`. -/
def ordered (partitions : List Partition) : List Partition :=
  partitions.insertionSort fun a b => a.start < b.start ∨ a.start = b.start ∧ a.length ≤ b.length

/-- `_mark_overlaps`. -/
def overlaps (partitions : List Partition) : List String :=
  let ordered := ordered partitions
  (ordered.zip ordered.tail).filterMap fun (left, right) =>
    if right.start < left.start + left.length then
      some s!"OVERLAPPING_PARTITIONS: {left.index} and {right.index}"
    else none

/-! ## MBR -/

/-- What one of the four rows of an MBR stands for. -/
inductive MbrRow
  | empty
  | refused (error : String)
  | partition (value : Partition)

/-- `f"0x{value:02x}"` for a byte. -/
def hexByte (value : ℕ) : String :=
  let digits := "0123456789abcdef".toList
  String.ofList ['0', 'x', digits.getD (value / 16) '0', digits.getD (value % 16) '0']

/-- `f"{value:02X}"` for a byte. -/
def upperHex (value : ℕ) : String :=
  let digits := "0123456789ABCDEF".toList
  String.ofList [digits.getD (value / 16) '0', digits.getD (value % 16) '0']

/-- One pass of the loop over the rows of `_parse_mbr`. -/
def mbrRow (size index : ℕ) (row : Bytes) : MbrRow :=
  let boot := u8 row 0
  let typeCode := u8 row 4
  let lbaStart := le32 row 8
  let sectors := le32 row 12
  let start := lbaStart * 512
  let length := sectors * 512
  if typeCode = 0 ∧ lbaStart = 0 ∧ sectors = 0 then .empty
  else if boot ≠ 0 ∧ boot ≠ 0x80 then
    .refused s!"MBR partition {index} has invalid boot flag {hexByte boot}"
  else if typeCode ∈ [0x05, 0x0F, 0x85] then
    .refused s!"MBR extended partition {index} is deferred"
  else if sectors = 0 ∨ start < 512 ∨ start > size ∨ length > size - start then
    .refused s!"MBR partition {index} lies outside image"
  else
    let type := "0x" ++ upperHex typeCode
    .partition
      { index := index
        start := start
        length := length
        type := type
        scheme := "MBR"
        name := none
        metadata :=
          [("partition.scheme", .text "MBR"), ("partition.index", .number index),
            ("partition.start_bytes", .number start), ("partition.length_bytes", .number length),
            ("partition.type", .text type), ("mbr.type_code", .number typeCode),
            ("mbr.bootable", .flag (decide (boot = 0x80))), ("mbr.lba_start", .number lbaStart),
            ("mbr.sector_count", .number sectors)] }

def MbrRow.partition? : MbrRow → Option Partition
  | .partition value => some value
  | _ => none

def MbrRow.error? : MbrRow → Option String
  | .refused error => some error
  | _ => none

/-- The four rows of the table. -/
def mbrRows (sector : Bytes) : List Bytes :=
  (List.range 4).map fun index => slice sector (446 + index * 16) (462 + index * 16)

/-- `row[4] or any(row[8:16])`. -/
def populated (row : Bytes) : Bool :=
  decide (u8 row 4 ≠ 0) || (slice row 8 16).any fun byte => decide (byte ≠ 0)

/-- The rows that make a table out of a boot sector. -/
def plausibleRow (row : Bytes) : Bool :=
  populated row && decide (u8 row 0 = 0 ∨ u8 row 0 = 0x80) && decide (u8 row 4 ≠ 0) &&
    decide (le32 row 12 ≠ 0)

/-- `_parse_mbr`. -/
def parseMbr (image : Bytes) (maxPartitions : ℕ) : Except Exc (Option PartitionTable) :=
  if image.length < 512 then .ok none
  else
    let sector := slice image 0 512
    if (mbrRows sector).all fun row => !plausibleRow row then .ok none
    else if slice sector 510 512 ≠ [0x55, 0xAA] then
      .error (.partitionTable "MBR signature 0x55AA is absent")
    else
      let rows := (mbrRows sector).zipIdx.map fun (row, index) => mbrRow image.length index row
      let partitions := rows.filterMap MbrRow.partition?
      let kept := partitions.take maxPartitions
      let counted :=
        if partitions.length > maxPartitions then ["partition count exceeds server maximum"] else []
      .ok <| some
        { scheme := "MBR"
          partitions := kept
          errors := rows.filterMap MbrRow.error? ++ counted ++ overlaps kept }

/-! ## RDB -/

/-- `_valid_rdb_checksum`. -/
def validRdbChecksum (block : Bytes) : Bool :=
  let count := be32 block 4
  if block.length < 24 then false
  else if count < 6 ∨ count > block.length / 4 then false
  else decide ((((List.range count).map fun i => be32 block (4 * i)).sum) % 2 ^ 32 = 0)

/-- `bytes.decode("latin-1")`. -/
def latin1 (bytes : Bytes) : PyStr := bytes.map fun byte => Fin.ofNat 0x110000 byte.toNat

/-- `text.encode("latin-1")`. -/
def latin1Bytes (text : PyStr) : Bytes := text.map fun c => UInt8.ofNat c.val

lemma latin1_lt (bytes : Bytes) : ∀ c ∈ latin1 bytes, c.val < 256 := by
  intro c hc
  obtain ⟨byte, -, rfl⟩ := List.mem_map.1 hc
  have hlt := byte.toNat_lt
  simp only [Fin.ofNat]
  omega

/-- Latin-1 characters are read back. -/
lemma latin1_latin1Bytes {text : PyStr} (h : ∀ c ∈ text, c.val < 256) :
    latin1 (latin1Bytes text) = text := by
  unfold latin1 latin1Bytes
  rw [List.map_map]
  refine (List.map_congr_left fun c hc => ?_).trans (List.map_id text)
  have hlt := h c hc
  refine Fin.ext ?_
  simp only [Function.comp_apply, UInt8.toNat_ofNat', Fin.ofNat, id_eq]
  omega

/-- The name in a PART block, `None` when it is empty. -/
def rdbName (block : Bytes) : Option PyStr :=
  let name := latin1 (slice block 37 (37 + min (u8 block 36) 31))
  if name = [] then none else some name

/-- The text that stands for a DosType. -/
def dosTypeText (dostype : Bytes) : String :=
  if slice dostype 0 3 = ascii "DOS" then "DOS\\" ++ toString (u8 dostype 3)
  else String.join (dostype.map fun byte => upperHex byte.toNat)

/-- `struct.unpack_from(">i", data, offset)`. -/
def beInt32 (data : Bytes) (offset : ℕ) : ℤ :=
  let value := be32 data offset
  if value < 2 ^ 31 then value else value - 2 ^ 32

/-- The partition a PART block describes, or why there is none. -/
def rdbPartition (size blockSize index : ℕ) (block : Bytes) : Except String Partition :=
  let surfaces := be32 block 140
  let blocksPerTrack := be32 block 148
  let low := be32 block 164
  let high := be32 block 168
  let cylinderBytes := surfaces * blocksPerTrack * blockSize
  let start := low * cylinderBytes
  let length := (high - low + 1) * cylinderBytes
  if surfaces = 0 ∨ blocksPerTrack = 0 ∨ high < low then
    .error s!"RDB partition {index} has invalid geometry"
  else if start > size ∨ length > size - start then
    .error s!"RDB partition {index} lies outside image"
  else
    let type := dosTypeText (slice block 192 196)
    let name := rdbName block
    .ok
      { index := index
        start := start
        length := length
        type := type
        scheme := "RDB"
        name := name
        metadata :=
          [("partition.scheme", .text "RDB"), ("partition.index", .number index),
            ("partition.start_bytes", .number start), ("partition.length_bytes", .number length),
            ("partition.type", .text type), ("partition.name", .name name),
            ("rdb.dostype", .text type), ("rdb.low_cylinder", .number low),
            ("rdb.high_cylinder", .number high), ("rdb.block_size", .number blockSize),
            ("rdb.surfaces", .number surfaces), ("rdb.blocks_per_track", .number blocksPerTrack),
            ("rdb.boot_priority", .number (beInt32 block 188))] }

/-- The chain of PART blocks, at most `remaining` more of them. -/
def rdbChain (image : Bytes) (blockSize : ℕ) :
    ℕ → List ℕ → ℕ → List Partition → List String → List Partition × List String
  | remaining, seen, pointer, partitions, errors =>
    if pointer = 0xFFFFFFFF then (partitions, errors)
    else if pointer ∈ seen then (partitions, errors ++ ["RDB partition pointer cycle"])
    else match remaining with
      | 0 => (partitions, errors ++ ["partition count exceeds server maximum"])
      | remaining + 1 =>
        let offset := pointer * blockSize
        if offset > image.length ∨ blockSize > image.length - offset then
          (partitions, errors ++ ["RDB partition pointer lies outside image"])
        else
          let block := slice image offset (offset + blockSize)
          if slice block 0 4 ≠ [0x50, 0x41, 0x52, 0x54] ∨ validRdbChecksum block = false then
            (partitions, errors ++ [s!"invalid RDB PART block at {pointer}"])
          else
            match rdbPartition image.length blockSize partitions.length block with
            | .error error =>
                rdbChain image blockSize remaining (pointer :: seen) (be32 block 16) partitions
                  (errors ++ [error])
            | .ok partition =>
                rdbChain image blockSize remaining (pointer :: seen) (be32 block 16)
                  (partitions ++ [partition]) errors

/-- The first of the first 16 sectors that begins with `RDSK`. -/
def findRdb (image : Bytes) : Option Bytes :=
  ((List.range (min 16 (image.length / 512))).map fun index =>
    slice image (index * 512) (index * 512 + 512)).find? fun sector =>
      slice sector 0 4 = [0x52, 0x44, 0x53, 0x4B]

/-- A power of two from 512 to 65536. -/
def validBlockSize (blockSize : ℕ) : Bool :=
  decide (512 ≤ blockSize ∧ blockSize ≤ 65536 ∧ blockSize &&& (blockSize - 1) = 0)

/-- `_parse_rdb`. -/
def parseRdb (image : Bytes) (maxPartitions : ℕ) : Except Exc (Option PartitionTable) :=
  match findRdb image with
  | none => .ok none
  | some rdb =>
      let blockSize := be32 rdb 16
      if validRdbChecksum rdb = false then .error (.partitionTable "invalid RDB checksum")
      else if validBlockSize blockSize = false then
        .error (.partitionTable "invalid RDB block size")
      else
        let (partitions, errors) :=
          rdbChain image blockSize maxPartitions [] (be32 rdb 28) [] []
        .ok <| some
          { scheme := "RDB"
            partitions := partitions
            errors := errors ++ overlaps partitions }

/-- `parse_partition_table`. -/
def parse (image : Bytes) (maxPartitions : ℕ) : Except Exc (Option PartitionTable) := do
  match ← parseRdb image maxPartitions with
  | some table => return some table
  | none => parseMbr image maxPartitions

/-! ## What a table can hold -/

/-- The partition is not empty and lies in an image of this size. -/
structure InImage (size : ℕ) (partition : Partition) : Prop where
  pos : 0 < partition.length
  inside : partition.start + partition.length ≤ size

lemma mbrRow_inImage {size index : ℕ} {row : Bytes} {partition : Partition}
    (h : mbrRow size index row = .partition partition) : InImage size partition := by
  simp only [mbrRow] at h
  split at h
  · cases h
  split at h
  · cases h
  split at h
  · cases h
  split at h
  · cases h
  · next hrange =>
      obtain rfl := MbrRow.partition.inj h
      refine ⟨?_, ?_⟩ <;> dsimp only <;> omega

/-- A table that comes out of an MBR. -/
lemma parseMbr_table {image : Bytes} {maxPartitions : ℕ} {table : PartitionTable}
    (h : parseMbr image maxPartitions = .ok (some table)) :
    table.partitions.length ≤ maxPartitions ∧
      (∀ partition ∈ table.partitions, InImage image.length partition) ∧
      (table.errors = [] → overlaps table.partitions = []) := by
  simp only [parseMbr] at h
  split at h
  · simp at h
  split at h
  · simp at h
  split at h
  · simp at h
  · obtain rfl := Option.some.inj (Except.ok.inj h)
    refine ⟨List.length_take_le _ _, fun partition hmem => ?_, fun herrors => ?_⟩
    · obtain ⟨row, hrow, hpartition⟩ := List.mem_filterMap.1 (List.mem_of_mem_take hmem)
      obtain ⟨⟨bytes, index⟩, -, rfl⟩ := List.mem_map.1 hrow
      refine @mbrRow_inImage image.length index bytes partition ?_
      revert hpartition
      cases mbrRow image.length index bytes with
      | partition value => simp [MbrRow.partition?]
      | _ => simp [MbrRow.partition?]
    · exact (List.append_eq_nil_iff.1 herrors).2

lemma rdbPartition_inImage {size blockSize index : ℕ} (hblock : 0 < blockSize) {block : Bytes}
    {partition : Partition} (h : rdbPartition size blockSize index block = .ok partition) :
    InImage size partition := by
  simp only [rdbPartition] at h
  split at h
  · cases h
  split at h
  · cases h
  · next hgeometry hrange =>
      obtain rfl := Except.ok.inj h
      push Not at hgeometry
      have hcylinder : 0 < be32 block 140 * be32 block 148 * blockSize :=
        Nat.mul_pos (Nat.mul_pos (Nat.pos_of_ne_zero hgeometry.1)
          (Nat.pos_of_ne_zero hgeometry.2.1)) hblock
      exact ⟨Nat.mul_pos (Nat.succ_pos _) hcylinder, by dsimp only; omega⟩

/-- The chain adds at most one partition for each block it may still read, and adds only those that
a PART block describes. -/
lemma rdbChain_partitions {image : Bytes} {blockSize : ℕ} (hblock : 0 < blockSize)
    (remaining : ℕ) (seen : List ℕ) (pointer : ℕ) (partitions : List Partition)
    (errors : List String) (h : ∀ partition ∈ partitions, InImage image.length partition) :
    (rdbChain image blockSize remaining seen pointer partitions errors).1.length ≤
        partitions.length + remaining ∧
      ∀ partition ∈ (rdbChain image blockSize remaining seen pointer partitions errors).1,
        InImage image.length partition := by
  induction remaining generalizing seen pointer partitions errors with
  | zero =>
      unfold rdbChain
      split_ifs <;> exact ⟨Nat.le_add_right _ _, h⟩
  | succ remaining ih =>
      unfold rdbChain
      dsimp only
      split_ifs
      · exact ⟨Nat.le_add_right _ _, h⟩
      · exact ⟨Nat.le_add_right _ _, h⟩
      · exact ⟨Nat.le_add_right _ _, h⟩
      · exact ⟨Nat.le_add_right _ _, h⟩
      · split
        · next error _ =>
            obtain ⟨hlength, hin⟩ := ih (pointer :: seen)
              (be32 (slice image (pointer * blockSize) (pointer * blockSize + blockSize)) 16)
              partitions (errors ++ [error]) h
            exact ⟨by omega, hin⟩
        · next partition hpartition =>
            obtain ⟨hlength, hin⟩ := ih (pointer :: seen)
              (be32 (slice image (pointer * blockSize) (pointer * blockSize + blockSize)) 16)
              (partitions ++ [partition]) errors fun other hmem => by
                rcases List.mem_append.1 hmem with hmem | hmem
                · exact h other hmem
                · obtain rfl := List.mem_singleton.1 hmem
                  exact rdbPartition_inImage hblock hpartition
            rw [List.length_append, List.length_singleton] at hlength
            exact ⟨by omega, hin⟩

lemma validBlockSize_ge {blockSize : ℕ} (h : ¬validBlockSize blockSize = false) :
    512 ≤ blockSize := by
  simp only [validBlockSize, decide_eq_false_iff_not, not_not] at h
  exact h.1

/-- A table that comes out of an RDB. -/
lemma parseRdb_table {image : Bytes} {maxPartitions : ℕ} {table : PartitionTable}
    (h : parseRdb image maxPartitions = .ok (some table)) :
    table.partitions.length ≤ maxPartitions ∧
      (∀ partition ∈ table.partitions, InImage image.length partition) ∧
      (table.errors = [] → overlaps table.partitions = []) := by
  simp only [parseRdb] at h
  split at h
  · simp at h
  next rdb _ =>
  split at h
  · simp at h
  split at h
  · simp at h
  · next hsize =>
      obtain rfl := Option.some.inj (Except.ok.inj h)
      have hblock := validBlockSize_ge hsize
      obtain ⟨hlength, hin⟩ := @rdbChain_partitions image (be32 rdb 16) (by omega) maxPartitions []
        (be32 rdb 28) [] [] (by simp)
      rw [List.length_nil, Nat.zero_add] at hlength
      exact ⟨hlength, hin, fun herrors => (List.append_eq_nil_iff.1 herrors).2⟩

/-- What holds of every table that a parser returns. -/
lemma parse_table {image : Bytes} {maxPartitions : ℕ} {table : PartitionTable}
    (h : parse image maxPartitions = .ok (some table)) :
    table.partitions.length ≤ maxPartitions ∧
      (∀ partition ∈ table.partitions, InImage image.length partition) ∧
      (table.errors = [] → overlaps table.partitions = []) := by
  unfold parse at h
  cases hrdb : parseRdb image maxPartitions with
  | error exc => simp [hrdb, bind, Except.bind] at h
  | ok found =>
      cases found with
      | none => exact parseMbr_table (by simpa [hrdb, bind, Except.bind] using h)
      | some found =>
          obtain rfl : found = table := by
            simpa [hrdb, bind, Except.bind, pure, Except.pure] using h
          exact parseRdb_table hrdb

/-- No partition of a table is empty. -/
lemma parse_length_pos {image : Bytes} {maxPartitions : ℕ} {table : PartitionTable}
    (h : parse image maxPartitions = .ok (some table)) {partition : Partition}
    (hmem : partition ∈ table.partitions) : 0 < partition.length :=
  ((parse_table h).2.1 partition hmem).pos

/-! ## A table that is cut off -/

/-- What a parser says of partitions beyond the maximum. -/
def cutOff : String := "partition count exceeds server maximum"

lemma rdbChain_length_ge (image : Bytes) (blockSize remaining : ℕ) (seen : List ℕ) (pointer : ℕ)
    (partitions : List Partition) (errors : List String) :
    partitions.length ≤
      (rdbChain image blockSize remaining seen pointer partitions errors).1.length := by
  induction remaining generalizing seen pointer partitions errors with
  | zero =>
      unfold rdbChain
      split_ifs <;> exact Nat.le_refl _
  | succ remaining ih =>
      unfold rdbChain
      dsimp only
      split_ifs
      · exact Nat.le_refl _
      · exact Nat.le_refl _
      · exact Nat.le_refl _
      · exact Nat.le_refl _
      · split
        · exact ih _ _ _ _
        · refine Nat.le_trans ?_ (ih _ _ _ _)
          rw [List.length_append]
          exact Nat.le_add_right _ _

/-- A chain that does not say so has not been cut off: no maximum finds more partitions. -/
lemma rdbChain_length_le (image : Bytes) (blockSize remaining maximum : ℕ) (seen : List ℕ)
    (pointer : ℕ) (partitions : List Partition) (errors : List String)
    (h : cutOff ∉ (rdbChain image blockSize remaining seen pointer partitions errors).2) :
    (rdbChain image blockSize maximum seen pointer partitions errors).1.length ≤
      (rdbChain image blockSize remaining seen pointer partitions errors).1.length := by
  induction remaining generalizing maximum seen pointer partitions errors with
  | zero =>
      unfold rdbChain at h ⊢
      by_cases hend : pointer = 0xFFFFFFFF
      · simp only [if_pos hend]
        exact Nat.le_refl _
      · by_cases hcycle : pointer ∈ seen
        · simp only [if_neg hend, if_pos hcycle]
          exact Nat.le_refl _
        · simp only [if_neg hend, if_neg hcycle] at h
          exact absurd (List.mem_append_right _ (List.mem_singleton_self _)) h
  | succ remaining ih =>
      cases maximum with
      | zero =>
          have hstart : (rdbChain image blockSize 0 seen pointer partitions errors).1 =
              partitions := by
            unfold rdbChain
            split_ifs <;> rfl
          rw [hstart]
          exact rdbChain_length_ge _ _ _ _ _ _ _
      | succ maximum =>
          unfold rdbChain at h ⊢
          dsimp only at h ⊢
          split_ifs at h ⊢
          · exact Nat.le_refl _
          · exact Nat.le_refl _
          · exact Nat.le_refl _
          · exact Nat.le_refl _
          · split at h
            · exact ih _ _ _ _ _ h
            · exact ih _ _ _ _ _ h

lemma parseRdb_length_le {image : Bytes} {maxPartitions maximum : ℕ} {full : PartitionTable}
    (h : parseRdb image maximum = .ok (some full)) :
    ∃ table, parseRdb image maxPartitions = .ok (some table) ∧
      (cutOff ∉ table.errors → full.partitions.length ≤ table.partitions.length) := by
  unfold parseRdb at h ⊢
  cases hrdb : findRdb image with
  | none =>
      rw [hrdb] at h
      cases h
  | some rdb =>
      rw [hrdb] at h
      dsimp only at h ⊢
      split_ifs at h ⊢
      obtain rfl := Option.some.inj (Except.ok.inj h)
      exact ⟨_, rfl, fun hcut => rdbChain_length_le _ _ _ _ _ _ _ _ fun hmem =>
        hcut (List.mem_append_left _ hmem)⟩

lemma parseMbr_length_le {image : Bytes} {maxPartitions maximum : ℕ} {full : PartitionTable}
    (h : parseMbr image maximum = .ok (some full)) :
    ∃ table, parseMbr image maxPartitions = .ok (some table) ∧
      (cutOff ∉ table.errors → full.partitions.length ≤ table.partitions.length) := by
  unfold parseMbr at h ⊢
  by_cases hsize : image.length < 512
  · rw [if_pos hsize] at h
    cases h
  rw [if_neg hsize] at h ⊢
  dsimp only at h ⊢
  by_cases hplain : ((mbrRows (slice image 0 512)).all fun row => !plausibleRow row) = true
  · rw [if_pos hplain] at h
    cases h
  rw [if_neg hplain] at h ⊢
  by_cases hsignature : slice (slice image 0 512) 510 512 ≠ [0x55, 0xAA]
  · rw [if_pos hsignature] at h
    cases h
  rw [if_neg hsignature] at h ⊢
  obtain rfl := Option.some.inj (Except.ok.inj h)
  refine ⟨_, rfl, fun hcut => ?_⟩
  generalize ((mbrRows (slice image 0 512)).zipIdx.map fun row =>
    mbrRow image.length row.2 row.1) = rows at hcut ⊢
  by_cases hcount : (rows.filterMap MbrRow.partition?).length > maxPartitions
  · rw [if_pos hcount] at hcut
    exact absurd (List.mem_append_left _ (List.mem_append_right _ (List.mem_singleton_self _))) hcut
  · dsimp only
    rw [List.take_of_length_le (Nat.le_of_not_lt hcount)]
    exact List.length_take_le' _ _

/-- A table that does not say so has not been cut off. -/
lemma parse_length_le {image : Bytes} {maxPartitions maximum : ℕ} {full : PartitionTable}
    (h : parse image maximum = .ok (some full)) :
    ∃ table, parse image maxPartitions = .ok (some table) ∧
      (cutOff ∉ table.errors → full.partitions.length ≤ table.partitions.length) := by
  unfold parse at h ⊢
  cases hrdb : parseRdb image maximum with
  | error exc =>
      rw [hrdb] at h
      cases h
  | ok found =>
      rw [hrdb] at h
      cases found with
      | some found =>
          obtain rfl := Option.some.inj (Except.ok.inj h)
          obtain ⟨table, htable, hlength⟩ := @parseRdb_length_le image maxPartitions _ _ hrdb
          rw [htable]
          exact ⟨table, rfl, hlength⟩
      | none =>
          have hnone : parseRdb image maxPartitions = .ok none := by
            unfold parseRdb at hrdb ⊢
            cases hfind : findRdb image with
            | none => rfl
            | some rdb =>
                rw [hfind] at hrdb
                dsimp only at hrdb
                split_ifs at hrdb
                cases hrdb
          rw [hnone]
          exact parseMbr_length_le h

end Partitions

end AVBox
