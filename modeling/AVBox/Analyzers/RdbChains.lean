import AVBox.Analyzers.Partitions
import Mathlib.Tactic.IntervalCases
import Mathlib.Tactic.MkIffOfInductiveProp

/-!
# Amiga partition tables read back

An image holds the partition table of an Amiga disk when one of its first sectors is the start of an
RDSK block, and a chain of PART blocks describes the partitions (`Holds`).  Both kinds of block sum
up to zero over as many words as they declare.

`parseRdb_of_holds` says that `_parse_rdb` finds the partitions of such an image, in the order of
the chain.  It looks at one sector of the RDSK block only, so a block that is larger and declares
more words than a sector holds is refused (`wide_block_refused`).
-/

namespace AVBox

open Binary

namespace Partitions

/-! ## Images with a partition table -/

/-- A partition of an Amiga disk. -/
structure RdbEntry where
  name : PyStr
  surfaces : ℕ
  blocksPerTrack : ℕ
  low : ℕ
  high : ℕ
  dosType : Bytes
  bootPriority : ℤ
  deriving DecidableEq

namespace RdbEntry

def cylinderBytes (entry : RdbEntry) (blockSize : ℕ) : ℕ :=
  entry.surfaces * entry.blocksPerTrack * blockSize

def start (entry : RdbEntry) (blockSize : ℕ) : ℕ := entry.low * entry.cylinderBytes blockSize

def length (entry : RdbEntry) (blockSize : ℕ) : ℕ :=
  (entry.high - entry.low + 1) * entry.cylinderBytes blockSize

/-- The partition with this number in an image of these blocks, which is called as given. -/
def partition (entry : RdbEntry) (blockSize index : ℕ) (name : Option PyStr) : Partition :=
  { index := index
    start := entry.start blockSize
    length := entry.length blockSize
    type := dosTypeText entry.dosType
    scheme := "RDB"
    name := name
    metadata :=
      [("partition.scheme", .text "RDB"), ("partition.index", .number index),
        ("partition.start_bytes", .number (entry.start blockSize)),
        ("partition.length_bytes", .number (entry.length blockSize)),
        ("partition.type", .text (dosTypeText entry.dosType)), ("partition.name", .name name),
        ("rdb.dostype", .text (dosTypeText entry.dosType)),
        ("rdb.low_cylinder", .number entry.low), ("rdb.high_cylinder", .number entry.high),
        ("rdb.block_size", .number blockSize), ("rdb.surfaces", .number entry.surfaces),
        ("rdb.blocks_per_track", .number entry.blocksPerTrack),
        ("rdb.boot_priority", .number entry.bootPriority)] }

/-- Its name, for which nothing stands when it is empty. -/
def shownName (entry : RdbEntry) : Option PyStr := if entry.name = [] then none else some entry.name

/-- A partition of a disk of this size, with a name of Latin-1 characters. -/
structure Valid (size blockSize : ℕ) (entry : RdbEntry) : Prop where
  short : entry.name.length ≤ 31
  latin : ∀ c ∈ entry.name, c.val < 256
  surfaces : 1 ≤ entry.surfaces
  blocksPerTrack : 1 ≤ entry.blocksPerTrack
  cylinders : entry.low ≤ entry.high
  inside : entry.start blockSize + entry.length blockSize ≤ size
  priority : -2 ^ 31 ≤ entry.bootPriority ∧ entry.bootPriority < 2 ^ 31

end RdbEntry

/-- The words that a block declares lie in it and sum up to zero. -/
@[mk_iff]
structure SumsUp (block : Bytes) : Prop where
  header : 6 ≤ be32 block 4
  inside : 4 * be32 block 4 ≤ block.length
  sum : (((List.range (be32 block 4)).map fun i => be32 block (4 * i)).sum) % 2 ^ 32 = 0

instance (block : Bytes) : Decidable (SumsUp block) := decidable_of_iff _ (sumsUp_iff block).symm

/-- A PART block that describes a partition and points to the next one. -/
@[mk_iff]
structure IsPart (block : Bytes) (entry : RdbEntry) (next : ℕ) : Prop where
  magic : slice block 0 4 = ascii "PART"
  sums : SumsUp block
  next : be32 block 16 = next
  nameLength : u8 block 36 = entry.name.length
  name : slice block 37 (37 + entry.name.length) = latin1Bytes entry.name
  surfaces : be32 block 140 = entry.surfaces
  blocksPerTrack : be32 block 148 = entry.blocksPerTrack
  low : be32 block 164 = entry.low
  high : be32 block 168 = entry.high
  priority : (be32 block 188 : ℤ) = entry.bootPriority % 2 ^ 32
  dosType : slice block 192 196 = entry.dosType

instance (block : Bytes) (entry : RdbEntry) (next : ℕ) : Decidable (IsPart block entry next) :=
  decidable_of_iff _ (isPart_iff block entry next).symm

/-- The block at a position. -/
def blockAt (image : Bytes) (blockSize position : ℕ) : Bytes :=
  slice image (position * blockSize) (position * blockSize + blockSize)

/-- A chain of PART blocks at these positions. -/
def PartChain (image : Bytes) (blockSize : ℕ) : ℕ → List (ℕ × RdbEntry) → Prop
  | pointer, [] => pointer = 0xFFFFFFFF
  | pointer, (position, entry) :: rest =>
      pointer = position ∧ position ≠ 0xFFFFFFFF ∧
        position * blockSize + blockSize ≤ image.length ∧ entry.Valid image.length blockSize ∧
        ∃ next, IsPart (blockAt image blockSize position) entry next ∧
          PartChain image blockSize next rest

/-- The first bytes of the block that begins at a sector. -/
def headAt (image : Bytes) (width sector : ℕ) : Bytes :=
  slice image (sector * 512) (sector * 512 + width)

/-- The start of an RDSK block with this block size. -/
@[mk_iff]
structure IsRdsk (block : Bytes) (blockSize : ℕ) : Prop where
  magic : slice block 0 4 = ascii "RDSK"
  sums : SumsUp block
  blockSize : be32 block 16 = blockSize

instance (block : Bytes) (blockSize : ℕ) : Decidable (IsRdsk block blockSize) :=
  decidable_of_iff _ (isRdsk_iff block blockSize).symm

/-- The image holds these partitions.  The RDSK block begins at the first of the first 16 sectors
that carries its mark, and the words that it declares are among its first `width` bytes. -/
structure Holds (image : Bytes) (width blockSize : ℕ) (parts : List (ℕ × RdbEntry)) : Prop where
  size : ∃ exponent, blockSize = 2 ^ exponent ∧ 512 ≤ blockSize ∧ blockSize ≤ 65536
  header : ∃ sector < 16, sector * 512 + width ≤ image.length ∧
    (∀ earlier < sector, slice (headAt image 512 earlier) 0 4 ≠ ascii "RDSK") ∧
    IsRdsk (headAt image width sector) blockSize ∧
    PartChain image blockSize (be32 (headAt image width sector) 28) parts
  distinct : (parts.map Prod.fst).Nodup

/-! ## What is read -/

variable {image block : Bytes} {blockSize : ℕ} {entry : RdbEntry}

lemma validRdbChecksum_of_sumsUp (h : SumsUp block) : validRdbChecksum block = true := by
  have hheader := h.header
  have hinside := h.inside
  unfold validRdbChecksum
  dsimp only
  rw [if_neg (by omega), if_neg (by omega), h.sum]
  rfl

/-- The words of two's complement. -/
lemma beInt32_of_mod {offset : ℕ} {value : ℤ} (h : (be32 block offset : ℤ) = value % 2 ^ 32)
    (hvalue : -2 ^ 31 ≤ value ∧ value < 2 ^ 31) : beInt32 block offset = value := by
  unfold beInt32
  dsimp only
  split <;> omega

/-- A PART block describes its partition. -/
lemma rdbPartition_of_isPart {next size index : ℕ} (h : IsPart block entry next)
    (hvalid : entry.Valid size blockSize) :
    rdbPartition size blockSize index block =
      .ok (entry.partition blockSize index entry.shownName) := by
  have hname : rdbName block = entry.shownName := by
    unfold rdbName RdbEntry.shownName
    rw [h.nameLength, Nat.min_eq_left hvalid.short, h.name, latin1_latin1Bytes hvalid.latin]
  have hsurfaces := hvalid.surfaces
  have hblocks := hvalid.blocksPerTrack
  have hcylinders := hvalid.cylinders
  have hinside := hvalid.inside
  simp only [RdbEntry.start, RdbEntry.length, RdbEntry.cylinderBytes] at hinside
  unfold rdbPartition
  simp only [h.surfaces, h.blocksPerTrack, h.low, h.high, h.dosType, hname,
    beInt32_of_mod h.priority hvalid.priority]
  rw [if_neg (by omega), if_neg (by omega)]
  rfl

lemma validBlockSize_of_exponent {exponent : ℕ} (h : blockSize = 2 ^ exponent)
    (hlow : 512 ≤ blockSize) (hhigh : blockSize ≤ 65536) : validBlockSize blockSize = true := by
  have hleast : 9 ≤ exponent := by
    by_contra hnot
    have hsmall : 2 ^ exponent ≤ 2 ^ 8 := Nat.pow_le_pow_right (by decide) (by omega)
    omega
  have hmost : exponent ≤ 16 := by
    by_contra hnot
    have hlarge : 2 ^ 17 ≤ 2 ^ exponent := Nat.pow_le_pow_right (by decide) (by omega)
    omega
  subst h
  interval_cases exponent <;> decide

/-- The partitions that a chain describes, numbered from `first` on. -/
def listed (blockSize first : ℕ) (parts : List (ℕ × RdbEntry)) : List Partition :=
  (parts.zipIdx first).map fun part =>
    part.1.2.partition blockSize part.2 part.1.2.shownName

/-- The chain goes on behind a PART block. -/
lemma rdbChain_of_part {pointer next : ℕ} {seen : List ℕ} (hend : pointer ≠ 0xFFFFFFFF)
    (hunseen : pointer ∉ seen) (hinside : pointer * blockSize + blockSize ≤ image.length)
    (hpart : IsPart (blockAt image blockSize pointer) entry next)
    (hvalid : entry.Valid image.length blockSize) (remaining : ℕ) (partitions : List Partition)
    (errors : List String) :
    rdbChain image blockSize (remaining + 1) seen pointer partitions errors =
      rdbChain image blockSize remaining (pointer :: seen) next
        (partitions ++ [entry.partition blockSize partitions.length entry.shownName]) errors := by
  have hpartition : rdbPartition image.length blockSize partitions.length _ = _ :=
    rdbPartition_of_isPart hpart hvalid
  have hmagic := hpart.magic
  have hsums := validRdbChecksum_of_sumsUp hpart.sums
  have hnext := hpart.next
  unfold blockAt at hpartition hmagic hsums hnext
  rw [rdbChain, if_neg hend, if_neg hunseen]
  dsimp only
  rw [if_neg (by omega), if_neg, hpartition, hnext]
  rintro (hnot | hnot)
  · exact hnot hmagic
  · rw [hsums] at hnot
    cases hnot

/-- The chain is followed to its end. -/
lemma rdbChain_of_chain {parts : List (ℕ × RdbEntry)}
    {remaining pointer : ℕ} {seen : List ℕ} (h : PartChain image blockSize pointer parts)
    (hlimit : parts.length ≤ remaining) (hdistinct : (parts.map Prod.fst).Nodup)
    (hseen : ∀ part ∈ parts, part.1 ∉ seen) (partitions : List Partition) (errors : List String) :
    rdbChain image blockSize remaining seen pointer partitions errors =
      (partitions ++ listed blockSize partitions.length parts, errors) := by
  induction parts generalizing remaining pointer seen partitions with
  | nil =>
      obtain rfl : pointer = 0xFFFFFFFF := h
      unfold rdbChain
      rw [if_pos rfl, listed, List.zipIdx_nil, List.map_nil, List.append_nil]
  | cons part parts ih =>
      obtain ⟨position, entry⟩ := part
      obtain ⟨rfl, hend, hinside, hvalid, next, hpart, hchain⟩ := h
      obtain ⟨remaining, rfl⟩ : ∃ fewer, remaining = fewer + 1 :=
        Nat.exists_eq_succ_of_ne_zero (by rw [List.length_cons] at hlimit; omega)
      obtain ⟨hnew, hdistinct⟩ := List.nodup_cons.1 hdistinct
      obtain ⟨hunseen, hseen⟩ := List.forall_mem_cons.1 hseen
      rw [rdbChain_of_part hend hunseen hinside hpart hvalid,
        ih hchain (Nat.le_of_succ_le_succ hlimit) hdistinct]
      · rw [listed, listed, List.zipIdx_cons, List.map_cons, List.append_assoc, List.length_append]
        rfl
      · intro other hother hmem
        rcases List.mem_cons.1 hmem with hsame | hmem
        · have hfirst : other.1 ∈ parts.map Prod.fst := List.mem_map_of_mem hother
          rw [hsame] at hfirst
          exact hnew hfirst
        · exact hseen other hother hmem

/-- The first sector with the mark is found. -/
lemma findRdb_of_first {sector : ℕ} (hsector : sector < 16)
    (hinside : sector * 512 + 512 ≤ image.length)
    (hfirst : ∀ earlier < sector, slice (headAt image 512 earlier) 0 4 ≠ ascii "RDSK")
    (hmagic : slice (headAt image 512 sector) 0 4 = ascii "RDSK") :
    findRdb image = some (headAt image 512 sector) := by
  have hfind : (List.range (min 16 (image.length / 512))).find?
      ((fun block => decide (slice block 0 4 = ascii "RDSK")) ∘ headAt image 512) =
        some sector := by
    refine List.find?_range_eq_some.2 ⟨?_, List.mem_range.2 (by omega), fun earlier hearlier => ?_⟩
    · exact decide_eq_true hmagic
    · rw [Bool.not_eq_true', Function.comp_apply]
      exact decide_eq_false (hfirst earlier hearlier)
  unfold findRdb
  rw [List.find?_map]
  exact congrArg (Option.map (headAt image 512)) hfind

/-- What is returned for an image that holds a table. -/
lemma parseRdb_eq_of_holds {parts : List (ℕ × RdbEntry)} {maxPartitions : ℕ}
    (h : Holds image 512 blockSize parts) (hlimit : parts.length ≤ maxPartitions) :
    parseRdb image maxPartitions = .ok (some ⟨"RDB", listed blockSize 0 parts,
      overlaps (listed blockSize 0 parts)⟩) := by
  obtain ⟨exponent, hpower, hlow, hhigh⟩ := h.size
  obtain ⟨sector, hsector, hinside, hfirst, hrdsk, hchain⟩ := h.header
  have hfound := findRdb_of_first hsector hinside hfirst hrdsk.magic
  have hread : rdbChain image blockSize maxPartitions [] _ [] [] = _ :=
    rdbChain_of_chain hchain hlimit h.distinct (by simp) [] []
  unfold parseRdb
  rw [hfound]
  dsimp only
  rw [validRdbChecksum_of_sumsUp hrdsk.sums, hrdsk.blockSize,
    validBlockSize_of_exponent hpower hlow hhigh, if_neg (by decide), if_neg (by decide), hread]
  rfl

/-- The partitions of an image are returned in the order of the chain, and the errors report nothing
but overlaps. -/
theorem parseRdb_of_holds {parts : List (ℕ × RdbEntry)} {maxPartitions : ℕ}
    (h : Holds image 512 blockSize parts) (hlimit : parts.length ≤ maxPartitions) :
    ∃ table, parseRdb image maxPartitions = .ok (some table) ∧
      table.partitions = listed blockSize 0 parts ∧ table.errors = overlaps table.partitions :=
  ⟨_, parseRdb_eq_of_holds h hlimit, rfl, rfl⟩

/-! ### One partition, and a wide block -/

/-- A disk of two sectors, which are its only partition too. -/
def smallEntry (name : PyStr) : RdbEntry := ⟨name, 1, 2, 0, 0, ascii "DOS" ++ [1], -5⟩

/-- The disk: an RDSK block, and a PART block with the name at 36. -/
def smallDisk (name : PyStr) : Bytes :=
  [0x5244534B, 6, 0xADBBAAAF, 0, 512, 0, 0, 1].flatMap beBytes ++ List.replicate 480 0 ++
    [0x50415254, 6, 0xAFBEADA7, 0, 0xFFFFFFFF, 0, 0, 0, 0].flatMap beBytes ++
    UInt8.ofNat name.length :: latin1Bytes name ++ List.replicate (103 - name.length) 0 ++
    [1, 0, 2].flatMap beBytes ++ List.replicate 12 0 ++ [0, 0].flatMap beBytes ++
    List.replicate 16 0 ++ beBytes 0xFFFFFFFB ++ ascii "DOS" ++ [1] ++ List.replicate 316 0

lemma smallEntry_valid {name : Bytes} (hshort : name.length ≤ 31) :
    (smallEntry (latin1 name)).Valid 1024 512 where
  short := by rwa [smallEntry, latin1, List.length_map]
  latin := latin1_lt name
  surfaces := Nat.le_refl 1
  blocksPerTrack := Nat.le_succ 1
  cylinders := Nat.le_refl 0
  inside := by simp [RdbEntry.start, RdbEntry.length, RdbEntry.cylinderBytes, smallEntry]
  priority := by simp [smallEntry]

lemma smallDisk_holds : ∀ name ∈ [[], ascii "DH0"],
    Holds (smallDisk (latin1 name)) 512 512 [(1, smallEntry (latin1 name))] := by
  have hblocks : ∀ name ∈ [[], ascii "DH0"], name.length ≤ 31 ∧
      (smallDisk (latin1 name)).length = 1024 ∧
      IsRdsk (headAt (smallDisk (latin1 name)) 512 0) 512 ∧
      be32 (headAt (smallDisk (latin1 name)) 512 0) 28 = 1 ∧
      IsPart (blockAt (smallDisk (latin1 name)) 512 1) (smallEntry (latin1 name)) 0xFFFFFFFF := by
    decide +kernel
  intro name hmem
  obtain ⟨hshort, hlength, hrdsk, hpointer, hpart⟩ := hblocks name hmem
  have hvalid := smallEntry_valid hshort
  rw [← hlength] at hvalid
  exact ⟨⟨9, rfl, by decide, by decide⟩,
    ⟨0, by decide, by omega, fun earlier hearlier => absurd hearlier (Nat.not_lt_zero _), hrdsk,
      hpointer, by decide, by omega, hvalid, _, hpart, rfl⟩, List.nodup_singleton 1⟩

/-- A PART block of a disk with one surface and two blocks per track. -/
def partBlock (checksum next low high : ℕ) (name : PyStr) : Bytes :=
  [0x50415254, 6, checksum, 0, next, 0, 0, 0, 0].flatMap beBytes ++
    UInt8.ofNat name.length :: latin1Bytes name ++ List.replicate (103 - name.length) 0 ++
    [1, 0, 2].flatMap beBytes ++ List.replicate 12 0 ++ [low, high].flatMap beBytes ++
    List.replicate 16 0 ++ beBytes 0xFFFFFFFB ++ ascii "DOS" ++ [1] ++ List.replicate 316 0

/-- A disk of two cylinders, with the partitions DH0 of both and DH1 of the second one. -/
def pairDisk : Bytes :=
  [0x5244534B, 6, 0xADBBAAAF, 0, 512, 0, 0, 1].flatMap beBytes ++ List.replicate 480 0 ++
    partBlock 0xAFBEADA4 2 0 1 (latin1 (ascii "DH0")) ++
    partBlock 0xAFBEADA7 0xFFFFFFFF 1 1 (latin1 (ascii "DH1")) ++ List.replicate 512 0

/-- Its chain. -/
def pairParts : List (ℕ × RdbEntry) :=
  [(1, ⟨latin1 (ascii "DH0"), 1, 2, 0, 1, ascii "DOS" ++ [1], -5⟩),
    (2, ⟨latin1 (ascii "DH1"), 1, 2, 1, 1, ascii "DOS" ++ [1], -5⟩)]

lemma pairParts_valid : ∀ part ∈ pairParts, part.2.Valid 2048 512 := by
  have hparts : ∀ part ∈ pairParts, part.2.name.length ≤ 31 ∧ 1 ≤ part.2.surfaces ∧
      1 ≤ part.2.blocksPerTrack ∧ part.2.low ≤ part.2.high ∧
      part.2.start 512 + part.2.length 512 ≤ 2048 ∧
      (-2 ^ 31 ≤ part.2.bootPriority ∧ part.2.bootPriority < 2 ^ 31) := by decide +kernel
  intro part hmem
  obtain ⟨hshort, hsurfaces, hblocks, hcylinders, hinside, hpriority⟩ := hparts part hmem
  refine ⟨hshort, ?_, hsurfaces, hblocks, hcylinders, hinside, hpriority⟩
  rcases List.mem_cons.1 hmem with rfl | hmem
  · exact latin1_lt _
  · obtain rfl := List.mem_singleton.1 hmem
    exact latin1_lt _

/-- Both partitions are returned, and that they overlap is reported. -/
theorem pairDisk_read : ∃ table, parseRdb pairDisk 2 = .ok (some table) ∧
    table.partitions = listed 512 0 pairParts ∧ table.errors = overlaps table.partitions ∧
      table.errors ≠ [] := by
  have hblocks : pairDisk.length = 2048 ∧ IsRdsk (headAt pairDisk 512 0) 512 ∧
      be32 (headAt pairDisk 512 0) 28 = 1 ∧
      IsPart (blockAt pairDisk 512 1) pairParts[0].2 2 ∧
      IsPart (blockAt pairDisk 512 2) pairParts[1].2 0xFFFFFFFF := by decide +kernel
  obtain ⟨hlength, hrdsk, hpointer, hfirst, hsecond⟩ := hblocks
  have hvalid := pairParts_valid
  rw [← hlength] at hvalid
  have hholds : Holds pairDisk 512 512 pairParts :=
    ⟨⟨9, rfl, by decide, by decide⟩,
      ⟨0, by decide, by omega, fun earlier hearlier => absurd hearlier (Nat.not_lt_zero _), hrdsk,
        hpointer, by decide, by omega, hvalid _ List.mem_cons_self, _, hfirst,
        rfl, by decide, by omega, hvalid _ (List.mem_cons_of_mem _ List.mem_cons_self), _,
        hsecond, rfl⟩, by decide⟩
  obtain ⟨table, htable, hpartitions, herrors⟩ := parseRdb_of_holds hholds
    (show pairParts.length ≤ 2 from Nat.le_refl 2)
  refine ⟨table, htable, hpartitions, herrors, ?_⟩
  rw [herrors, hpartitions]
  decide +kernel

/-- The block of a disk without partitions that declares more words than a sector holds. -/
def wideDisk : Bytes :=
  [0x5244534B, 129, 0xADBBA835, 0, 1024, 0, 0, 0xFFFFFFFF].flatMap beBytes ++ List.replicate 992 0

lemma wideDisk_holds : Holds wideDisk 1024 1024 [] := by
  have hrdsk : wideDisk.length = 1024 ∧ IsRdsk (headAt wideDisk 1024 0) 1024 ∧
      be32 (headAt wideDisk 1024 0) 28 = 0xFFFFFFFF := by decide +kernel
  obtain ⟨hlength, hrdsk, hpointer⟩ := hrdsk
  exact ⟨⟨10, rfl, by decide, by decide⟩,
    ⟨0, by decide, by omega, fun earlier hearlier => absurd hearlier (Nat.not_lt_zero _), hrdsk,
      hpointer⟩, by decide⟩

/-- A block that declares more words than a sector holds is refused, and an empty name is not
returned. -/
theorem wide_block_refused : (Holds wideDisk 1024 1024 [] ∧
      parseRdb wideDisk 1 = .error (.partitionTable "invalid RDB checksum")) ∧
    Holds (smallDisk []) 512 512 [(1, smallEntry [])] ∧
      ∃ table, parseRdb (smallDisk []) 1 = .ok (some table) ∧
        table.partitions.map (·.name) = [none] := by
  refine ⟨⟨wideDisk_holds, by decide +kernel⟩, smallDisk_holds [] (by decide), ?_⟩
  exact ⟨_, parseRdb_eq_of_holds (smallDisk_holds [] (by decide)) (by decide), rfl⟩

end Partitions

end AVBox
