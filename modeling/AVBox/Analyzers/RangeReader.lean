import AVBox.Analyzers.Partitions
import AVBox.Lib.Streams

/-!
# The reader of a byte range

`BoundedRangeReader` of `analyzers/partitions.py`, over a file whose position it shares with whoever
else reads from it, and `hash_range`.

A caller makes calls in any order: it seeks, asks for the position, reads, and makes generators with
`chunks`, which it may leave and resume between other calls.  `Mirrors` is the invariant: the reader
stands where a stream of the bytes of the range would stand, wherever the file does.

* `reader_refines_slice` compares all runs of calls with those on a stream in memory.
* `hashRange_eq` says what `hash_range` digests.
-/

namespace AVBox

open Binary Streams

namespace RangeReader

/-! ## The reader -/

/-- A file that is open for reading, at a place which all of its users share. -/
structure OpenFile where
  content : Bytes
  position : ℕ
  deriving DecidableEq, Repr

def OpenFile.seek (file : OpenFile) (target : ℕ) : OpenFile := { file with position := target }

def OpenFile.read (file : OpenFile) (size : ℕ) : Bytes × OpenFile :=
  let value := slice file.content file.position (file.position + size)
  (value, { file with position := file.position + value.length })

/-- `BoundedRangeReader`, without its stream. -/
structure BoundedRangeReader where
  start : ℤ
  length : ℤ
  rootSize : ℤ
  position : ℤ
  start_nonneg : 0 ≤ start
  stop_le : start + length ≤ rootSize
  position_nonneg : 0 ≤ position
  position_le : position ≤ length
  deriving DecidableEq

namespace BoundedRangeReader

/-- `BoundedRangeReader.__init__`. -/
def new (start length rootSize : ℤ) : Except Exc BoundedRangeReader :=
  if h : start < 0 ∨ length < 0 ∨ start > rootSize ∨ length > rootSize - start then
    .error (.partitionTable "byte range lies outside root object")
  else .ok ⟨start, length, rootSize, 0, by omega, by omega, by omega, by omega⟩

/-- The ranges that are accepted. -/
lemma new_eq_ok_iff {start length rootSize : ℤ} :
    (∃ reader, new start length rootSize = .ok reader) ↔
      0 ≤ start ∧ 0 ≤ length ∧ start + length ≤ rootSize := by
  unfold new
  split
  · exact iff_of_false (by rintro ⟨reader, ⟨⟩⟩) (by omega)
  · exact iff_of_true ⟨_, rfl⟩ (by omega)

def moveTo (reader : BoundedRangeReader) (target : ℤ) (h : 0 ≤ target ∧ target ≤ reader.length) :
    BoundedRangeReader :=
  { reader with
    position := target
    position_nonneg := h.1
    position_le := h.2 }

/-- The target of a `seek`. -/
def target (reader : BoundedRangeReader) (offset whence : ℤ) : ℤ :=
  if whence = 0 then offset
  else if whence = 1 then reader.position + offset
  else reader.length + offset

lemma read_inside (reader : BoundedRangeReader) {size : ℤ} (h : ¬size < 0) :
    0 ≤ reader.position + min size (reader.length - reader.position) ∧
      reader.position + min size (reader.length - reader.position) ≤ reader.length := by
  have hpos := reader.position_nonneg
  have hle := reader.position_le
  omega

end BoundedRangeReader

/-- A reader and the file it reads from. -/
structure Session where
  file : OpenFile
  reader : BoundedRangeReader
  deriving DecidableEq

namespace Session

/-- `BoundedRangeReader.seek`. -/
def seek (offset whence : ℤ) (s : Session) : Except Exc ℤ × Session :=
  let target := s.reader.target offset whence
  if h : target < 0 ∨ target > s.reader.length then
    (.error (.partitionTable "seek lies outside bounded byte range"), s)
  else (.ok target, { s with reader := s.reader.moveTo target (by omega) })

/-- `BoundedRangeReader.tell`. -/
def tell (s : Session) : ℤ := s.reader.position

/-- `BoundedRangeReader.read`. -/
def read (size : ℤ) (s : Session) : Except Exc Bytes × Session :=
  let size := if size < 0 then s.reader.length - s.reader.position else size
  if h : size < 0 then (.error (.partitionTable "negative read size"), s)
  else
    let clipped := min size (s.reader.length - s.reader.position)
    let read := (s.file.seek (s.reader.start + s.reader.position).toNat).read clipped.toNat
    if read.1.length ≠ clipped then
      (.error (.partitionTable "root object was truncated during range read"),
        { s with file := read.2 })
    else
      (.ok read.1,
        ⟨read.2, s.reader.moveTo (s.reader.position + clipped) (s.reader.read_inside h)⟩)

/-- How many bytes a read returns. -/
def clipped (size : ℤ) (s : Session) : ℕ :=
  (min (if size < 0 then s.reader.length - s.reader.position else size)
    (s.reader.length - s.reader.position)).toNat

end Session

/-! ## Calls -/

/-- A stream as `chunks` and its callers see it.  Somebody else may move the file underneath. -/
structure SeekableStream (σ : Type) where
  seek : ℤ → ℤ → σ → Except Exc ℤ × σ
  tell : σ → ℤ
  read : ℤ → σ → Except Exc Bytes × σ
  length : σ → ℤ
  moved : ℕ → σ → σ

/-- A generator of `chunks` has not begun, waits at its `yield` or has ended. -/
inductive Progress
  | created
  | yielded
  | finished
  deriving DecidableEq, Repr

structure Generator where
  chunkSize : ℤ
  progress : Progress
  deriving DecidableEq, Repr

inductive Call
  | seek (offset whence : ℤ)
  | tell
  | read (size : ℤ)
  | chunks (chunkSize : ℤ)
  | next (generator : ℕ)
  | moved (position : ℕ)
  deriving DecidableEq, Repr

inductive Reply
  | int (value : ℤ)
  | bytes (value : Bytes)
  | generator (number : ℕ)
  | stopped
  | raised (exc : Exc)
  | none
  deriving DecidableEq, Repr

def Reply.ofInt : Except Exc ℤ → Reply
  | .ok value => .int value
  | .error exc => .raised exc

def Reply.ofBytes : Except Exc Bytes → Reply
  | .ok value => .bytes value
  | .error exc => .raised exc

/-- A stream and the generators that `chunks` has made over it. -/
structure World (σ : Type) where
  stream : σ
  generators : List Generator
  deriving DecidableEq, Repr

section Steps

variable {σ : Type} (S : SeekableStream σ)

/-- The loop of `chunks` up to its next `yield`. -/
def resume (chunkSize : ℤ) (stream : σ) : Reply × Progress × σ :=
  if S.tell stream < S.length stream then
    let read := S.read (min chunkSize (S.length stream - S.tell stream)) stream
    match read.1 with
    | .ok value => (.bytes value, .yielded, read.2)
    | .error exc => (.raised exc, .finished, read.2)
  else (.stopped, .finished, stream)

/-- `next(generator)`, for a generator of `chunks`. -/
def advance (generator : Generator) (stream : σ) : Reply × Progress × σ :=
  match generator.progress with
  | .finished => (.stopped, .finished, stream)
  | .yielded => resume S generator.chunkSize stream
  | .created =>
      let sought := S.seek 0 0 stream
      match sought.1 with
      | .ok _ => resume S generator.chunkSize sought.2
      | .error exc => (.raised exc, .finished, sought.2)

/-- What a call returns, and what it leaves. -/
def step (world : World σ) : Call → Reply × World σ
  | .seek offset whence =>
      let sought := S.seek offset whence world.stream
      (.ofInt sought.1, { world with stream := sought.2 })
  | .tell => (.int (S.tell world.stream), world)
  | .read size =>
      let read := S.read size world.stream
      (.ofBytes read.1, { world with stream := read.2 })
  | .chunks chunkSize =>
      (.generator world.generators.length,
        { world with generators := world.generators ++ [⟨chunkSize, .created⟩] })
  | .next number =>
      match world.generators[number]? with
      | none => (.stopped, world)
      | some generator =>
          let advanced := advance S generator world.stream
          (advanced.1, ⟨advanced.2.2,
            world.generators.set number { generator with progress := advanced.2.1 }⟩)
  | .moved position => (.none, { world with stream := S.moved position world.stream })

end Steps

/-- The reader. -/
def bounded : SeekableStream Session where
  seek := Session.seek
  tell := Session.tell
  read := Session.read
  length s := s.reader.length
  moved position s := { s with file := s.file.seek position }

/-- How a stream in memory refuses a seek. -/
def seekRefused : SeekError → Exc
  | .negative offset => .value s!"negative seek value {offset}"
  | .whence value => .value s!"invalid whence ({value}, should be 0, 1 or 2)"

/-- A stream in memory, of which a seek that leads out of the bytes is refused. -/
def inMemory : SeekableStream Memory where
  seek offset whence m :=
    if (m.target offset whence).any fun target : ℤ => target < 0 ∨ target > m.content.length then
      (.error (.partitionTable "seek lies outside bounded byte range"), m)
    else ((m.seek offset whence).1.mapError seekRefused, (m.seek offset whence).2)
  tell m := m.position
  read size m := (.ok (m.read size).1, (m.read size).2)
  length m := m.content.length
  moved _ m := m

/-- A stream that counts from the end wherever it does not count from the start or the position. -/
def SeekableStream.fromEnd {σ : Type} (S : SeekableStream σ) : SeekableStream σ :=
  { S with
    seek := fun offset whence => S.seek offset (if whence = 0 ∨ whence = 1 then whence else 2) }

/-! ## Streams that answer alike -/

section Simulation

variable {σ τ : Type} {S : SeekableStream σ} {S' : SeekableStream τ} {R : σ → τ → Prop}

/-- Related streams answer alike and stay related. -/
structure Simulates (S : SeekableStream σ) (S' : SeekableStream τ) (R : σ → τ → Prop) : Prop where
  seek : ∀ {s t}, R s t → ∀ offset whence,
    (S.seek offset whence s).1 = (S'.seek offset whence t).1 ∧
      R (S.seek offset whence s).2 (S'.seek offset whence t).2
  tell : ∀ {s t}, R s t → S.tell s = S'.tell t
  read : ∀ {s t}, R s t → ∀ size, (S.read size s).1 = (S'.read size t).1 ∧
    R (S.read size s).2 (S'.read size t).2
  length : ∀ {s t}, R s t → S.length s = S'.length t
  moved : ∀ {s t}, R s t → ∀ position, R (S.moved position s) (S'.moved position t)

/-- Worlds with related streams and the same generators. -/
def Alike (R : σ → τ → Prop) (world : World σ) (world' : World τ) : Prop :=
  R world.stream world'.stream ∧ world.generators = world'.generators

variable (h : Simulates S S' R)

include h

lemma Simulates.resume {s : σ} {t : τ} (hrel : R s t) (chunkSize : ℤ) :
    (resume S chunkSize s).1 = (resume S' chunkSize t).1 ∧
      (resume S chunkSize s).2.1 = (resume S' chunkSize t).2.1 ∧
      R (resume S chunkSize s).2.2 (resume S' chunkSize t).2.2 := by
  unfold RangeReader.resume
  rw [h.tell hrel, h.length hrel]
  split
  · obtain ⟨hread, hnext⟩ := h.read hrel (min chunkSize (S'.length t - S'.tell t))
    dsimp only
    rw [hread]
    split
    · exact ⟨rfl, rfl, hnext⟩
    · exact ⟨rfl, rfl, hnext⟩
  · exact ⟨rfl, rfl, hrel⟩

lemma Simulates.advance {s : σ} {t : τ} (hrel : R s t) (generator : Generator) :
    (advance S generator s).1 = (advance S' generator t).1 ∧
      (advance S generator s).2.1 = (advance S' generator t).2.1 ∧
      R (advance S generator s).2.2 (advance S' generator t).2.2 := by
  unfold RangeReader.advance
  split
  · exact ⟨rfl, rfl, hrel⟩
  · exact h.resume hrel _
  · obtain ⟨hseek, hnext⟩ := h.seek hrel 0 0
    dsimp only
    rw [hseek]
    split
    · exact h.resume hnext _
    · exact ⟨rfl, rfl, hnext⟩

lemma Simulates.step {world : World σ} {world' : World τ} (halike : Alike R world world')
    (call : Call) : (step S world call).1 = (step S' world' call).1 ∧
      Alike R (step S world call).2 (step S' world' call).2 := by
  obtain ⟨hrel, hgenerators⟩ := halike
  cases call with
  | seek offset whence =>
      obtain ⟨hseek, hnext⟩ := h.seek hrel offset whence
      exact ⟨congrArg Reply.ofInt hseek, hnext, hgenerators⟩
  | tell => exact ⟨congrArg Reply.int (h.tell hrel), hrel, hgenerators⟩
  | read size =>
      obtain ⟨hread, hnext⟩ := h.read hrel size
      exact ⟨congrArg Reply.ofBytes hread, hnext, hgenerators⟩
  | chunks chunkSize =>
      refine ⟨?_, hrel, ?_⟩
      · simp only [RangeReader.step, hgenerators]
      · simp only [RangeReader.step, hgenerators]
  | next number =>
      simp only [RangeReader.step, hgenerators]
      split
      · exact ⟨rfl, hrel, hgenerators⟩
      · next generator _ =>
          obtain ⟨hreply, hprogress, hnext⟩ := h.advance hrel generator
          exact ⟨hreply, hnext, by rw [hprogress]⟩
  | moved position => exact ⟨rfl, h.moved hrel position, hgenerators⟩

/-- Related streams answer alike to all calls. -/
lemma Simulates.replies {world : World σ} {world' : World τ} (halike : Alike R world world')
    (calls : List Call) :
    replies (RangeReader.step S) world calls = replies (RangeReader.step S') world' calls ∧
      Alike R (after (RangeReader.step S) world calls)
        (after (RangeReader.step S') world' calls) :=
  replies_eq_of_simulation (R := Alike R) (fun _ _ call hrel => h.step hrel call) halike calls

end Simulation

/-! ## The reader and the bytes of its range -/

/-- The bytes of a range. -/
def range (content : Bytes) (start length : ℤ) : Bytes :=
  slice content start.toNat (start + length).toNat

/-- A reader stands where a stream of the bytes of its range does. -/
structure Mirrors (s : Session) (m : Memory) : Prop where
  size : s.reader.rootSize = s.file.content.length
  content : m.content = range s.file.content s.reader.start s.reader.length
  position : s.reader.position = m.position

lemma Mirrors.length {s : Session} {m : Memory} (h : Mirrors s m) :
    (m.content.length : ℤ) = s.reader.length := by
  have hstart := s.reader.start_nonneg
  have hstop := s.reader.stop_le
  have hpos := s.reader.position_nonneg
  have hle := s.reader.position_le
  have hsize := h.size
  rw [h.content, range, length_slice]
  omega

variable {s : Session} {m : Memory}

lemma Mirrors.target (h : Mirrors s m) (offset whence : ℤ) :
    m.target offset (if whence = 0 ∨ whence = 1 then whence else 2) =
      some (s.reader.target offset whence) := by
  unfold Memory.target BoundedRangeReader.target
  rw [h.length, h.position]
  by_cases h0 : whence = 0
  · simp [h0]
  · by_cases h1 : whence = 1
    · simp [h1]
    · simp [h0, h1]

lemma Mirrors.seek (h : Mirrors s m) (offset whence : ℤ) :
    (bounded.seek offset whence s).1 = (inMemory.fromEnd.seek offset whence m).1 ∧
      Mirrors (bounded.seek offset whence s).2 (inMemory.fromEnd.seek offset whence m).2 := by
  have htarget := h.target offset whence
  simp only [bounded, inMemory, SeekableStream.fromEnd, Session.seek, htarget, h.length,
    Option.any_some, decide_eq_true_eq]
  split
  · exact ⟨rfl, h⟩
  · next hinside =>
      rw [Memory.seek_of_target htarget (by omega)]
      refine ⟨rfl, h.size, h.content, ?_⟩
      simp only [BoundedRangeReader.moveTo]
      omega

/-- The bytes from the position of a stream on. -/
lemma Mirrors.rest (h : Mirrors s m) :
    m.content.drop m.position = slice s.file.content (s.reader.start + s.reader.position).toNat
      (s.reader.start + s.reader.length).toNat := by
  have hstart := s.reader.start_nonneg
  have hpos := s.reader.position_nonneg
  have hposition := h.position
  rw [h.content, range, slice, slice, List.drop_take, List.drop_drop,
    show m.position = s.reader.position.toNat by omega]
  congr 1
  · omega
  · congr 1
    omega

/-- What a read returns in memory. -/
lemma Mirrors.value (h : Mirrors s m) (size : ℤ) :
    (m.read size).1 = slice s.file.content (s.reader.start + s.reader.position).toNat
      ((s.reader.start + s.reader.position).toNat + s.clipped size) := by
  have hstart := s.reader.start_nonneg
  have hpos := s.reader.position_nonneg
  have hle := s.reader.position_le
  unfold Memory.read Session.clipped
  dsimp only
  rw [h.rest]
  split
  · congr 1
    omega
  · rw [slice, slice, List.take_take]
    congr 1
    omega

/-- A read whose bytes are all there. -/
lemma Session.read_of_full {value : Bytes} {size : ℤ} (hvalue : value =
      ((s.file.seek (s.reader.start + s.reader.position).toNat).read (s.clipped size)).1)
    (hlength : value.length = s.clipped size) :
    (s.read size).1 = .ok value ∧ (s.read size).2.file.content = s.file.content ∧
      ∃ h, (s.read size).2.reader = s.reader.moveTo (s.reader.position + value.length) h := by
  have hle := s.reader.position_le
  have hclipped : min (if size < 0 then s.reader.length - s.reader.position else size)
      (s.reader.length - s.reader.position) = s.clipped size :=
    (Int.toNat_of_nonneg (by omega)).symm
  have hinside := @BoundedRangeReader.read_inside s.reader
    (if size < 0 then s.reader.length - s.reader.position else size) (by split <;> omega)
  rw [hclipped, ← hlength] at hinside
  subst hvalue
  simp only [Session.read, hclipped, Int.toNat_natCast]
  rw [dif_neg (by omega), if_neg (by omega)]
  refine ⟨rfl, rfl, hinside, ?_⟩
  simp only [hlength]

lemma Mirrors.read (h : Mirrors s m) (size : ℤ) :
    (bounded.read size s).1 = (inMemory.fromEnd.read size m).1 ∧
      Mirrors (bounded.read size s).2 (inMemory.fromEnd.read size m).2 := by
  have hstart := s.reader.start_nonneg
  have hstop := s.reader.stop_le
  have hpos := s.reader.position_nonneg
  have hle := s.reader.position_le
  have hsize := h.size
  have hposition := h.position
  have hlength : (m.read size).1.length = s.clipped size := by
    rw [h.value, length_slice_of_le]
    unfold Session.clipped
    omega
  obtain ⟨hread, hcontent, hinside, hreader⟩ := Session.read_of_full (h.value size) hlength
  refine ⟨hread, ?_, ?_, ?_⟩
  · rw [show bounded.read size s = s.read size from rfl, hreader, hcontent]
    exact hsize
  · rw [show bounded.read size s = s.read size from rfl, hreader, hcontent]
    exact h.content
  · rw [show bounded.read size s = s.read size from rfl, hreader]
    simp only [BoundedRangeReader.moveTo, inMemory, SeekableStream.fromEnd, Memory.read]
    omega

lemma bounded_simulates : Simulates bounded inMemory.fromEnd Mirrors where
  seek h := h.seek
  tell h := h.position
  read h := h.read
  length h := h.length.symm
  moved h _ := ⟨h.size, h.content, h.position⟩

/-! ## What `chunks` yields -/

section Chunks

variable {σ : Type} {S : SeekableStream σ}

lemma resume_of_read {chunkSize : ℤ} {stream stream' : σ} {value : Bytes}
    (h : S.tell stream < S.length stream)
    (hread : S.read (min chunkSize (S.length stream - S.tell stream)) stream =
      (.ok value, stream')) : resume S chunkSize stream = (.bytes value, .yielded, stream') := by
  rw [resume, if_pos h, hread]

lemma resume_of_end {chunkSize : ℤ} {stream : σ} (h : ¬S.tell stream < S.length stream) :
    resume S chunkSize stream = (.stopped, .finished, stream) := by
  rw [resume, if_neg h]

lemma step_next {world : World σ} {number : ℕ} {generator : Generator}
    (h : world.generators[number]? = some generator) :
    step S world (.next number) = ((advance S generator world.stream).1,
      ⟨(advance S generator world.stream).2.2, world.generators.set number
        { generator with progress := (advance S generator world.stream).2.1 }⟩) := by
  simp only [step, h]

lemma set_generator {world : World σ} {number : ℕ} {generator : Generator}
    (h : world.generators[number]? = some generator) (other : Generator) :
    (world.generators.set number other)[number]? = some other :=
  List.getElem?_set_self (List.getElem?_eq_some_iff.1 h).1

/-- A generator that has ended yields nothing more. -/
lemma replies_of_finished {world : World σ} {number : ℕ} {generator : Generator}
    (h : world.generators[number]? = some generator) (hfinished : generator.progress = .finished)
    (count : ℕ) : replies (step S) world (List.replicate count (.next number)) =
      List.replicate count .stopped := by
  induction count generalizing world generator with
  | zero => rfl
  | succ count ih =>
      have hadvance : advance S generator world.stream = (.stopped, .finished, world.stream) := by
        simp only [advance, hfinished]
      rw [List.replicate_succ, replies, step_next h, hadvance]
      exact congrArg _ (ih (set_generator h _) rfl)

end Chunks

section Memory

variable {chunkSize : ℤ} {world : World Memory} {number : ℕ}

/-- The loop in a stream that is not at its end. -/
lemma resume_of_lt (hsize : 1 ≤ chunkSize) {m : Memory} (h : m.position < m.content.length) :
    ∃ value, value ≠ [] ∧ value ++ m.content.drop (m.position + value.length) =
        m.content.drop m.position ∧
      resume inMemory.fromEnd chunkSize m =
        (.bytes value, .yielded, ⟨m.content, m.position + value.length⟩) := by
  have hrest : (m.content.drop m.position).length = m.content.length - m.position :=
    List.length_drop
  obtain ⟨count, hcount⟩ := Int.eq_ofNat_of_zero_le
    (show 0 ≤ min chunkSize (m.content.length - m.position) by omega)
  have hlength : ((m.content.drop m.position).take count).length = count := by
    rw [List.length_take]
    omega
  refine ⟨(m.content.drop m.position).take count, ?_, ?_, ?_⟩
  · refine List.ne_nil_of_length_pos ?_
    omega
  · rw [hlength, ← List.drop_drop, List.take_append_drop]
  · refine resume_of_read (Int.ofNat_lt.2 h) (Prod.ext (congrArg Except.ok ?_) ?_)
    · change (m.read (min chunkSize (m.content.length - m.position))).1 = _
      rw [hcount, Memory.read_natCast]
    · change (m.read (min chunkSize (m.content.length - m.position))).2 = _
      rw [hcount, Memory.read_natCast]

/-- A generator that waits at its `yield` yields what is left of the bytes, and then nothing. -/
lemma replies_of_yielded (hsize : 1 ≤ chunkSize)
    (h : world.generators[number]? = some ⟨chunkSize, .yielded⟩) :
    ∃ pieces : List Bytes, pieces.flatten = world.stream.content.drop world.stream.position ∧
      [] ∉ pieces ∧ ∀ count, replies (step inMemory.fromEnd) world
          (List.replicate (pieces.length + count) (.next number)) =
        pieces.map .bytes ++ List.replicate count .stopped := by
  induction hleft : world.stream.content.length - world.stream.position using
    Nat.strong_induction_on generalizing world with
  | _ left ih =>
    have hstep := step_next (S := inMemory.fromEnd) h
    by_cases hend : world.stream.position < world.stream.content.length
    · obtain ⟨value, hvalue, hrest, hresume⟩ := resume_of_lt hsize hend
      have hpos := List.length_pos_iff.2 hvalue
      have hadvance : advance inMemory.fromEnd ⟨chunkSize, .yielded⟩ world.stream = _ := hresume
      rw [hadvance] at hstep
      have hshorter :
          world.stream.content.length - (world.stream.position + value.length) < left := by omega
      obtain ⟨pieces, hflatten, hproper, hreplies⟩ := @ih _ hshorter
        ⟨⟨world.stream.content, world.stream.position + value.length⟩, _⟩ (set_generator h _) rfl
      refine ⟨value :: pieces, ?_, ?_, fun count => ?_⟩
      · rw [List.flatten_cons, hflatten, hrest]
      · exact fun hmem => (List.mem_cons.1 hmem).elim hvalue.symm hproper
      · rw [List.length_cons, Nat.add_right_comm, List.replicate_succ, replies, hstep, hreplies]
        rfl
    · have hadvance : advance inMemory.fromEnd ⟨chunkSize, .yielded⟩ world.stream =
          (.stopped, .finished, world.stream) :=
        resume_of_end (mt Int.ofNat_lt.1 hend)
      rw [hadvance] at hstep
      refine ⟨[], (List.drop_eq_nil_of_le (by omega)).symm, List.not_mem_nil, fun count => ?_⟩
      rw [List.length_nil, Nat.zero_add]
      cases count with
      | zero => rfl
      | succ count =>
          rw [List.replicate_succ, replies, hstep,
            replies_of_finished (set_generator h _) rfl]
          rfl

lemma seek_start (m : Memory) : inMemory.seek 0 0 m = (.ok 0, ⟨m.content, 0⟩) := by
  have htarget : m.target 0 0 = some 0 := rfl
  simp only [inMemory, htarget, Option.any_some, Memory.seek_of_target htarget (Int.le_refl 0)]
  rw [if_neg]
  · rfl
  · simp only [decide_eq_true_eq]
    omega

/-- The first `yield` of a generator comes after a seek to the start. -/
lemma replies_of_created (h : world.generators[number]? = some ⟨chunkSize, .created⟩) (count : ℕ) :
    replies (step inMemory.fromEnd) world (List.replicate count (.next number)) =
      replies (step inMemory.fromEnd) ⟨⟨world.stream.content, 0⟩,
        world.generators.set number ⟨chunkSize, .yielded⟩⟩
        (List.replicate count (.next number)) := by
  cases count with
  | zero => rfl
  | succ count =>
      have hseek : inMemory.fromEnd.seek 0 0 world.stream = (.ok 0, ⟨world.stream.content, 0⟩) :=
        seek_start world.stream
      have hadvance : advance inMemory.fromEnd ⟨chunkSize, .created⟩ world.stream =
          advance inMemory.fromEnd ⟨chunkSize, .yielded⟩ ⟨world.stream.content, 0⟩ := by
        simp only [advance, hseek]
      rw [List.replicate_succ, replies, replies, step_next h, hadvance,
        step_next (set_generator h _), List.set_set]

/-- A generator of `chunks` yields the bytes of the stream, and then nothing, wherever the stream
stands. -/
lemma replies_of_chunks (hsize : 1 ≤ chunkSize) (world : World Memory) :
    ∃ pieces : List Bytes, pieces.flatten = world.stream.content ∧ [] ∉ pieces ∧
      ∀ count, replies (step inMemory.fromEnd) world
          (.chunks chunkSize ::
            List.replicate (pieces.length + count) (.next world.generators.length)) =
        .generator world.generators.length ::
          (pieces.map .bytes ++ List.replicate count .stopped) := by
  have hlast : (step inMemory.fromEnd world (.chunks chunkSize)).2.generators[
      world.generators.length]? = some ⟨chunkSize, .created⟩ := List.getElem?_concat_length
  obtain ⟨pieces, hflatten, hproper, hreplies⟩ := @replies_of_yielded chunkSize
    ⟨⟨world.stream.content, 0⟩, _⟩ _ hsize (set_generator hlast _)
  refine ⟨pieces, hflatten, hproper, fun count => ?_⟩
  rw [replies, replies_of_created hlast]
  exact congrArg _ (hreplies count)

/-- What is returned are pieces of the bytes. -/
def PieceOf (content : Bytes) : Reply → Prop
  | .bytes value => value <:+: content
  | _ => True

lemma seek_content (m : Memory) (offset whence : ℤ) :
    (inMemory.seek offset whence m).2.content = m.content := by
  simp only [inMemory]
  split
  · rfl
  · exact m.seek_content offset whence

lemma resume_pieceOf (chunkSize : ℤ) (m : Memory) :
    PieceOf m.content (resume inMemory.fromEnd chunkSize m).1 ∧
      (resume inMemory.fromEnd chunkSize m).2.2.content = m.content := by
  unfold resume
  split
  · exact ⟨m.read_infix _, rfl⟩
  · exact ⟨trivial, rfl⟩

lemma advance_pieceOf (generator : Generator) (m : Memory) :
    PieceOf m.content (advance inMemory.fromEnd generator m).1 ∧
      (advance inMemory.fromEnd generator m).2.2.content = m.content := by
  unfold advance
  split
  · exact ⟨trivial, rfl⟩
  · exact resume_pieceOf _ m
  · dsimp only
    split
    · have hresume := resume_pieceOf generator.chunkSize (inMemory.fromEnd.seek 0 0 m).2
      rwa [show (inMemory.fromEnd.seek 0 0 m).2.content = m.content from seek_content m 0 _]
        at hresume
    · exact ⟨trivial, seek_content m 0 _⟩

lemma step_pieceOf (world : World Memory) (call : Call) :
    PieceOf world.stream.content (step inMemory.fromEnd world call).1 ∧
      (step inMemory.fromEnd world call).2.stream.content = world.stream.content := by
  cases call with
  | seek offset whence =>
      refine ⟨?_, seek_content _ _ _⟩
      simp only [step]
      cases (inMemory.fromEnd.seek offset whence world.stream).1 <;> trivial
  | tell => exact ⟨trivial, rfl⟩
  | read size => exact ⟨world.stream.read_infix size, rfl⟩
  | chunks chunkSize => exact ⟨trivial, rfl⟩
  | next number =>
      simp only [step]
      split
      · exact ⟨trivial, rfl⟩
      · exact advance_pieceOf _ _
  | moved position => exact ⟨trivial, rfl⟩

/-- Only pieces of the bytes are returned in any run, and the bytes stay. -/
lemma replies_pieceOf (world : World Memory) (calls : List Call) :
    (∀ reply ∈ replies (step inMemory.fromEnd) world calls,
        PieceOf world.stream.content reply) ∧
      (after (step inMemory.fromEnd) world calls).stream.content = world.stream.content := by
  refine replies_forall
    (I := fun other : World Memory => other.stream.content = world.stream.content)
    (fun other call hsame => ?_) rfl calls
  have hstep := step_pieceOf other call
  rwa [hsame] at hstep

end Memory

/-! ## A reader is a slice -/

/-- Before any call. -/
def opened {σ : Type} (stream : σ) : World σ := ⟨stream, []⟩

section Reader

variable {file : OpenFile} {start length : ℤ} {reader : BoundedRangeReader}

/-- A reader begins where a stream of its range begins. -/
lemma mirrors_of_new
    (h : BoundedRangeReader.new start length file.content.length = .ok reader) :
    Mirrors ⟨file, reader⟩ ⟨range file.content start length, 0⟩ := by
  unfold BoundedRangeReader.new at h
  split at h
  · cases h
  · obtain rfl := Except.ok.inj h
    exact ⟨rfl, rfl, rfl⟩

/-- At any time `chunks` yields the range. -/
lemma chunks_of_reader
    (h : BoundedRangeReader.new start length file.content.length = .ok reader)
    (calls : List Call) {chunkSize : ℤ} (hsize : 1 ≤ chunkSize) :
    ∃ (number : ℕ) (pieces : List Bytes), pieces.flatten = range file.content start length ∧
      [] ∉ pieces ∧ ∀ count,
        replies (step bounded) (after (step bounded) (opened ⟨file, reader⟩) calls)
            (.chunks chunkSize :: List.replicate (pieces.length + count) (.next number)) =
          .generator number :: (pieces.map .bytes ++ List.replicate count .stopped) := by
  have hopened : Alike Mirrors (opened ⟨file, reader⟩)
      (opened ⟨range file.content start length, 0⟩) := ⟨mirrors_of_new h, rfl⟩
  have hafter := (bounded_simulates.replies hopened calls).2
  obtain ⟨pieces, hflatten, hproper, hpieces⟩ := replies_of_chunks hsize
    (after (step inMemory.fromEnd) (opened ⟨range file.content start length, 0⟩) calls)
  have hcontent := (replies_pieceOf (opened ⟨range file.content start length, 0⟩) calls).2
  exact ⟨_, pieces, hflatten.trans hcontent, hproper, fun count =>
    (bounded_simulates.replies hafter _).1.trans (hpieces count)⟩

/-- The reader of a range answers to all calls as a stream in memory of the bytes of the range does,
but for counting from the end wherever it does not count from the start or the position; it returns
pieces of the range only; and at any time `chunks` yields the range. -/
theorem reader_refines_slice
    (h : BoundedRangeReader.new start length file.content.length = .ok reader)
    (calls : List Call) :
    replies (step bounded) (opened ⟨file, reader⟩) calls =
        replies (step inMemory.fromEnd) (opened ⟨range file.content start length, 0⟩) calls ∧
      (∀ value, .bytes value ∈ replies (step bounded) (opened ⟨file, reader⟩) calls →
        value <:+: range file.content start length) ∧
      ∀ chunkSize ≥ 1, ∃ (number : ℕ) (pieces : List Bytes),
        pieces.flatten = range file.content start length ∧
        ∀ count, replies (step bounded) (after (step bounded) (opened ⟨file, reader⟩) calls)
            (.chunks chunkSize :: List.replicate (pieces.length + count) (.next number)) =
          .generator number :: (pieces.map .bytes ++ List.replicate count .stopped) := by
  have hopened : Alike Mirrors (opened ⟨file, reader⟩)
      (opened ⟨range file.content start length, 0⟩) := ⟨mirrors_of_new h, rfl⟩
  have hreplies := (bounded_simulates.replies hopened calls).1
  refine ⟨hreplies, fun value hmem => ?_, fun chunkSize hsize => ?_⟩
  · rw [hreplies] at hmem
    exact (replies_pieceOf _ calls).1 _ hmem
  · obtain ⟨number, pieces, hflatten, -, hpieces⟩ := chunks_of_reader h calls hsize
    exact ⟨number, pieces, hflatten, hpieces⟩

end Reader

/-! ## Hashes of a range -/

/-- `Partitions.rangeReader` is what reading to the end yields. -/
lemma rangeReader_eq (image : Bytes) (start length : ℕ) :
    Partitions.rangeReader image start length =
      (BoundedRangeReader.new start length image.length).map fun _ => range image start length := by
  unfold Partitions.rangeReader BoundedRangeReader.new
  split
  · rw [dif_pos (by omega)]
    rfl
  · rw [dif_neg (by omega)]
    rfl

section Hashes

variable {η : Type} (update : η → Bytes → η)

/-- Every hash object is updated. -/
def updateAll (hashers : List (String × η)) (chunk : Bytes) : List (String × η) :=
  hashers.map fun (name, hasher) => (name, update hasher chunk)

/-- The loop `for chunk in reader.chunks()`. -/
def digest : ℕ → World Session → List (String × η) → Except Exc (List (String × η))
  | 0, _, _ => .error .unending
  | fuel + 1, world, hashers =>
      let next := step bounded world (.next 0)
      match next.1 with
      | .bytes chunk => digest fuel next.2 (updateAll update hashers chunk)
      | .raised exc => .error exc
      | _ => .ok hashers

/-- `hash_range`, for the hash objects that it makes. -/
def hashRange (hexdigest : η → String) (hashers : List (String × η)) (content : Bytes)
    (start length : ℤ) : Except Exc (List (String × String)) := do
  let reader ← BoundedRangeReader.new start length content.length
  let world := (step bounded (opened ⟨⟨content, 0⟩, reader⟩) (.chunks (1024 * 1024))).2
  let hashers ← digest update (content.length + 1) world hashers
  return hashers.map fun (name, hasher) => (name, hexdigest hasher)

variable {update}

/-- The loop over a generator that yields these pieces. -/
lemma digest_of_replies {pieces : List Bytes} {world : World Session}
    (h : replies (step bounded) world (List.replicate (pieces.length + 1) (.next 0)) =
      pieces.map .bytes ++ [.stopped]) {fuel : ℕ} (hfuel : pieces.length < fuel)
    (hashers : List (String × η)) :
    digest update fuel world hashers = .ok (pieces.foldl (updateAll update) hashers) := by
  induction pieces generalizing world fuel hashers with
  | nil =>
      obtain ⟨fuel, rfl⟩ := Nat.exists_eq_succ_of_ne_zero (Nat.ne_of_gt hfuel)
      have hnext : (step bounded world (.next 0)).1 = .stopped := (List.cons.inj h).1
      rw [digest, hnext]
      rfl
  | cons piece pieces ih =>
      obtain ⟨fuel, rfl⟩ := Nat.exists_eq_succ_of_ne_zero (Nat.ne_of_gt (Nat.zero_lt_of_lt hfuel))
      obtain ⟨hnext, hrest⟩ := List.cons.inj h
      rw [digest, hnext]
      exact ih hrest (Nat.lt_of_succ_lt_succ hfuel) _

/-- To update with pieces one after the other is to update with all of them at once. -/
lemma foldl_updateAll (hnil : ∀ hasher, update hasher [] = hasher)
    (happend : ∀ hasher first rest,
      update (update hasher first) rest = update hasher (first ++ rest))
    (pieces : List Bytes) (hashers : List (String × η)) :
    pieces.foldl (updateAll update) hashers = updateAll update hashers pieces.flatten := by
  induction pieces generalizing hashers with
  | nil => simp [updateAll, hnil]
  | cons piece pieces ih =>
      rw [List.foldl_cons, ih]
      simp [updateAll, happend]

/-- Pieces are no more than the bytes they hold, if none is empty. -/
lemma length_le_of_pieces {pieces : List Bytes} (h : [] ∉ pieces) :
    pieces.length ≤ pieces.flatten.length := by
  induction pieces with
  | nil => exact Nat.le_refl _
  | cons piece pieces ih =>
      have hpiece := List.length_pos_iff.2 (List.ne_of_not_mem_cons h).symm
      have hrest := ih (List.not_mem_of_not_mem_cons h)
      rw [List.flatten_cons, List.length_append, List.length_cons]
      omega

/-- `hash_range` digests the bytes of the range. -/
theorem hashRange_eq (hnil : ∀ hasher, update hasher [] = hasher)
    (happend : ∀ hasher first rest,
      update (update hasher first) rest = update hasher (first ++ rest))
    (hexdigest : η → String) (hashers : List (String × η)) {content : Bytes} {start length : ℤ}
    (hstart : 0 ≤ start) (hlength : 0 ≤ length) (hstop : start + length ≤ content.length) :
    hashRange update hexdigest hashers content start length =
      .ok (hashers.map fun hasher =>
        (hasher.1, hexdigest (update hasher.2 (range content start length)))) := by
  obtain ⟨reader, hreader⟩ := BoundedRangeReader.new_eq_ok_iff.2 ⟨hstart, hlength, hstop⟩
  obtain ⟨number, pieces, hflatten, hproper, hreplies⟩ :=
    @chunks_of_reader ⟨content, 0⟩ start length reader hreader [] (1024 * 1024) (by omega)
  obtain ⟨hnumber, hyields⟩ := List.cons.inj (hreplies 1)
  obtain rfl : 0 = number := Reply.generator.inj hnumber
  have hfuel := length_le_of_pieces hproper
  rw [hflatten, range, length_slice] at hfuel
  have hdigest := @digest_of_replies η update pieces _ hyields (content.length + 1) (by omega)
    hashers
  rw [foldl_updateAll hnil happend, hflatten] at hdigest
  simp only [after] at hdigest
  simp only [hashRange, bind, Except.bind, pure, Except.pure, hreader, hdigest, updateAll,
    List.map_map]
  rfl

end Hashes

/-! ## The last two bytes of three -/

/-- The reader of the last two bytes of three. -/
def lastTwo : BoundedRangeReader := ⟨1, 2, 3, 0, by decide, by decide, by decide, by decide⟩

theorem lastTwo_refines :
    replies (step bounded) (opened ⟨⟨[7, 8, 9], 3⟩, lastTwo⟩) [.seek (-1) 2, .read 5, .seek 0 0] =
      replies (step inMemory.fromEnd) (opened ⟨[8, 9], 0⟩) [.seek (-1) 2, .read 5, .seek 0 0] :=
  (@reader_refines_slice ⟨[7, 8, 9], 3⟩ 1 2 lastTwo (by decide)
    [.seek (-1) 2, .read 5, .seek 0 0]).1

/-- A way of counting that a stream in memory refuses is counting from the end for the reader. -/
theorem other_whence_counts_from_end : BoundedRangeReader.new 1 2 3 = .ok lastTwo ∧
    replies (step bounded) (opened ⟨⟨[7, 8, 9], 0⟩, lastTwo⟩) [.seek 0 3] ≠
      replies (step inMemory) (opened ⟨range [7, 8, 9] 1 2, 0⟩) [.seek 0 3] := by
  decide

end RangeReader

end AVBox
