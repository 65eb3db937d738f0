import Mathlib.Algebra.Order.Ring.Nat
import Mathlib.Data.List.Basic
import Mathlib.Tactic.Ring

/-!
# Reading binary data

Slices and fixed-width words of a byte string, as Python's `data[start:stop]` and
`struct.unpack_from` read them, and the split of a byte string into the chunks that repeated
`read(size)` calls return.
-/

namespace Binary

/-- `data[start:stop]`: out-of-range bounds shorten the slice. -/
def slice (data : List UInt8) (start stop : ℕ) : List UInt8 := (data.drop start).take (stop - start)

/-- The big-endian value of a byte string. -/
def beNat (bytes : List UInt8) : ℕ := bytes.foldl (fun value byte => value * 256 + byte.toNat) 0

/-- The little-endian value of a byte string. -/
def leNat (bytes : List UInt8) : ℕ := bytes.foldr (fun byte value => byte.toNat + 256 * value) 0

/-- The byte at an offset. -/
def u8 (data : List UInt8) (offset : ℕ) : ℕ := (data.getD offset 0).toNat

/-- `struct.unpack_from("<H", data, offset)`. -/
def le16 (data : List UInt8) (offset : ℕ) : ℕ := leNat (slice data offset (offset + 2))

/-- `struct.unpack_from("<I", data, offset)`. -/
def le32 (data : List UInt8) (offset : ℕ) : ℕ := leNat (slice data offset (offset + 4))

/-- `struct.unpack_from("<Q", data, offset)`. -/
def le64 (data : List UInt8) (offset : ℕ) : ℕ := leNat (slice data offset (offset + 8))

/-- `struct.unpack_from(">I", data, offset)`. -/
def be32 (data : List UInt8) (offset : ℕ) : ℕ := beNat (slice data offset (offset + 4))

/-- `struct.unpack(f"<{count}I", data)`. -/
def words32 (data : List UInt8) (count : ℕ) : List ℕ :=
  (List.range count).map fun i => le32 data (4 * i)

/-- `needle in data`. -/
def contains (needle data : List UInt8) : Bool := data.tails.any fun rest => needle.isPrefixOf rest

/-- The bytes of an ASCII text. -/
def ascii (text : String) : List UInt8 := text.toList.map fun c => UInt8.ofNat c.toNat

lemma length_slice (data : List UInt8) (start stop : ℕ) :
    (slice data start stop).length = min (stop - start) (data.length - start) := by
  simp [slice]

/-- A slice within the data has the length it asks for. -/
lemma length_slice_of_le {data : List UInt8} {start length : ℕ}
    (h : start + length ≤ data.length) : (slice data start (start + length)).length = length := by
  rw [length_slice]
  omega

/-- A slice of the first part. -/
lemma slice_append_left {first : List UInt8} {start stop : ℕ} (h : stop ≤ first.length)
    (rest : List UInt8) : slice (first ++ rest) start stop = slice first start stop := by
  simp only [slice]
  by_cases hstart : start ≤ first.length
  · rw [List.drop_append_of_le_length hstart, List.take_append_of_le_length]
    rw [List.length_drop]
    omega
  · rw [show stop - start = 0 by omega, List.take_zero, List.take_zero]

/-- A slice of the second part. -/
lemma slice_append_right {first : List UInt8} {start stop : ℕ} (h : first.length ≤ start)
    (rest : List UInt8) :
    slice (first ++ rest) start stop = slice rest (start - first.length) (stop - first.length) := by
  simp only [slice]
  rw [List.drop_append, List.drop_eq_nil_of_le h, List.nil_append]
  congr 1
  omega

/-- A slice in two parts. -/
lemma slice_split (data : List UInt8) {start middle stop : ℕ} (h : start ≤ middle)
    (h' : middle ≤ stop) :
    slice data start stop = slice data start middle ++ slice data middle stop := by
  simp only [slice]
  rw [show stop - start = (middle - start) + (stop - middle) by omega, List.take_add,
    List.drop_drop, show start + (middle - start) = middle by omega]

/-- The beginning of a slice. -/
lemma take_slice (data : List UInt8) {start stop count : ℕ} (h : start + count ≤ stop) :
    (slice data start stop).take count = slice data start (start + count) := by
  simp only [slice]
  rw [List.take_take, Nat.min_eq_left (by omega), Nat.add_sub_cancel_left]

lemma slice_replicate {count start stop : ℕ} (h : stop ≤ count) (byte : UInt8) :
    slice (List.replicate count byte) start stop = List.replicate (stop - start) byte := by
  rw [slice, List.drop_replicate, List.take_replicate]
  congr 1
  omega

/-- A slice of the first bytes. -/
lemma slice_take {data : List UInt8} {start stop count : ℕ} (h : stop ≤ count) :
    slice (slice data 0 count) start stop = slice data start stop := by
  simp only [slice, List.drop_zero, Nat.sub_zero, List.drop_take, List.take_take]
  congr 1
  omega

/-- A slice of a slice. -/
lemma slice_slice {data : List UInt8} {start stop offset length : ℕ}
    (h : offset + length ≤ stop - start) :
    slice (slice data start stop) offset (offset + length) =
      slice data (start + offset) (start + offset + length) := by
  simp only [slice, List.drop_take, List.take_take, List.drop_drop]
  congr 1
  omega

/-- A piece of one of several blocks of the same length. -/
lemma slice_flatMap {block : ℕ → List UInt8} {size : ℕ} {numbers : List ℕ}
    (hsize : ∀ c ∈ numbers, (block c).length = size) {number offset length : ℕ}
    (hoffset : offset + length ≤ size) (hnumber : number < numbers.length) :
    slice (numbers.flatMap block) (number * size + offset) (number * size + offset + length) =
      slice (block (numbers.getD number 0)) offset (offset + length) := by
  induction numbers generalizing number with
  | nil => exact absurd hnumber (Nat.not_lt_zero _)
  | cons first rest ih =>
      have hfirst := hsize first List.mem_cons_self
      rw [List.flatMap_cons]
      cases number with
      | zero =>
          simp only [slice, Nat.zero_mul, Nat.zero_add, List.getD_cons_zero]
          rw [List.drop_append_of_le_length (by omega), List.take_append_of_le_length]
          rw [List.length_drop]
          omega
      | succ number =>
          have hrest := ih (fun c hc => hsize c (List.mem_cons_of_mem _ hc))
            (Nat.lt_of_succ_lt_succ hnumber)
          rw [List.getD_cons_succ, ← hrest]
          simp only [slice]
          rw [List.drop_append, List.drop_eq_nil_of_le (by rw [hfirst, Nat.succ_mul]; omega),
            List.nil_append, hfirst]
          congr 1
          · omega
          · congr 1
            rw [Nat.succ_mul]
            omega

section Blocks

variable {block : ℕ → List UInt8} {size count number : ℕ}

lemma length_flatMap_range (hsize : ∀ i, (block i).length = size) :
    ((List.range count).flatMap block).length = count * size := by
  rw [List.length_flatMap, List.map_congr_left fun i _ => hsize i, List.map_const',
    List.length_range, List.sum_replicate_nat]

/-- A piece of one of the blocks that are numbered from zero on. -/
lemma slice_flatMap_range (hsize : ∀ i, (block i).length = size) {offset length : ℕ}
    (hoffset : offset + length ≤ size) (hnumber : number < count) :
    slice ((List.range count).flatMap block) (number * size + offset)
        (number * size + offset + length) = slice (block number) offset (offset + length) := by
  have hnumber' : number < (List.range count).length := by rwa [List.length_range]
  have hget : (List.range count).getD number 0 = number := by
    rw [List.getD_eq_getElem?_getD, List.getElem?_range hnumber, Option.getD_some]
  rw [slice_flatMap (fun i _ => hsize i) hoffset hnumber', hget]

/-- One of these blocks. -/
lemma block_flatMap_range (hsize : ∀ i, (block i).length = size) (hnumber : number < count) :
    slice ((List.range count).flatMap block) (number * size) (number * size + size) =
      block number := by
  have hlength := hsize number
  have hslice := slice_flatMap_range hsize (Nat.le_of_eq (Nat.zero_add size)) hnumber
  rw [Nat.add_zero, Nat.zero_add] at hslice
  rw [hslice, slice, List.drop_zero, Nat.sub_zero, ← hlength, List.take_length]

end Blocks

/-! ## Big-endian values -/

lemma beNat_append (first rest : List UInt8) :
    beNat (first ++ rest) = beNat first * 256 ^ rest.length + beNat rest := by
  have hfold : ∀ (bytes : List UInt8) (value : ℕ),
      bytes.foldl (fun value byte => value * 256 + byte.toNat) value =
        value * 256 ^ bytes.length + beNat bytes := by
    intro bytes
    induction bytes with
    | nil => exact fun value => by rw [List.length_nil, pow_zero, mul_one]; rfl
    | cons byte bytes ih =>
        intro value
        have hcons : beNat (byte :: bytes) =
            bytes.foldl (fun value byte => value * 256 + byte.toNat) (0 * 256 + byte.toNat) := rfl
        rw [List.foldl_cons, ih, hcons, ih, List.length_cons, pow_succ]
        ring
  rw [beNat, List.foldl_append, hfold]
  rfl

lemma beNat_cons (byte : UInt8) (bytes : List UInt8) :
    beNat (byte :: bytes) = byte.toNat * 256 ^ bytes.length + beNat bytes := by
  have hone : beNat [byte] = byte.toNat := Nat.zero_add _
  rw [← List.singleton_append, beNat_append, hone]

lemma beNat_lt (bytes : List UInt8) : beNat bytes < 256 ^ bytes.length := by
  induction bytes with
  | nil => exact Nat.one_pos
  | cons byte bytes ih =>
      have hbyte := byte.toNat_lt
      have hfirst : byte.toNat * 256 ^ bytes.length ≤ 255 * 256 ^ bytes.length :=
        Nat.mul_le_mul_right _ (by omega)
      rw [beNat_cons, List.length_cons, Nat.pow_succ']
      omega

lemma be32_lt (data : List UInt8) (offset : ℕ) : be32 data offset < 2 ^ 32 := by
  refine Nat.lt_of_lt_of_le (beNat_lt _) ?_
  rw [show 2 ^ 32 = 256 ^ 4 from rfl]
  refine Nat.pow_le_pow_right (by decide) ?_
  rw [length_slice]
  omega

/-- `struct.pack(">I", word)`, for the last 32 bits of a number. -/
def beBytes (word : ℕ) : List UInt8 :=
  [UInt8.ofNat (word / 2 ^ 24), UInt8.ofNat (word / 2 ^ 16), UInt8.ofNat (word / 2 ^ 8),
    UInt8.ofNat word]

@[simp] lemma length_beBytes (word : ℕ) : (beBytes word).length = 4 := rfl

lemma beNat_beBytes (word : ℕ) : beNat (beBytes word) = word % 2 ^ 32 := by
  simp only [beBytes, beNat, List.foldl_cons, List.foldl_nil, UInt8.toNat_ofNat']
  omega

/-! ## Little-endian values -/

lemma leNat_cons (byte : UInt8) (bytes : List UInt8) :
    leNat (byte :: bytes) = byte.toNat + 256 * leNat bytes := rfl

lemma leNat_drop (bytes : List UInt8) (count : ℕ) :
    leNat (bytes.drop count) = leNat bytes / 256 ^ count := by
  induction count generalizing bytes with
  | zero => simp
  | succ count ih =>
      cases bytes with
      | nil => simp [leNat]
      | cons byte bytes =>
          have hbyte := byte.toNat_lt
          rw [List.drop_succ_cons, ih, leNat_cons, Nat.pow_succ', ← Nat.div_div_eq_div_mul]
          congr 1
          omega

lemma leNat_take (bytes : List UInt8) (count : ℕ) :
    leNat (bytes.take count) = leNat bytes % 256 ^ count := by
  induction count generalizing bytes with
  | zero => simp [leNat, Nat.mod_one]
  | succ count ih =>
      cases bytes with
      | nil => simp [leNat]
      | cons byte bytes =>
          have hbyte := byte.toNat_lt
          rw [List.take_succ_cons, leNat_cons, leNat_cons, ih, Nat.pow_succ', Nat.mod_mul]
          congr 1
          · omega
          · congr 2
            omega

lemma leNat_lt (bytes : List UInt8) : leNat bytes < 256 ^ bytes.length := by
  induction bytes with
  | nil => simp [leNat]
  | cons byte bytes ih =>
      have hbyte := byte.toNat_lt
      rw [leNat_cons, List.length_cons, Nat.pow_succ']
      omega

lemma le32_lt (data : List UInt8) (offset : ℕ) : le32 data offset < 2 ^ 32 := by
  refine Nat.lt_of_lt_of_le (leNat_lt _) ?_
  rw [show 2 ^ 32 = 256 ^ 4 from rfl]
  refine Nat.pow_le_pow_right (by decide) ?_
  rw [length_slice]
  omega

/-- A number in so many bytes, the least significant first. -/
def leBytes : ℕ → ℕ → List UInt8
  | 0, _ => []
  | width + 1, word => UInt8.ofNat word :: leBytes width (word / 256)

@[simp] lemma length_leBytes (width word : ℕ) : (leBytes width word).length = width := by
  induction width generalizing word with
  | zero => rfl
  | succ width ih => rw [leBytes, List.length_cons, ih]

lemma leNat_leBytes (width word : ℕ) : leNat (leBytes width word) = word % 256 ^ width := by
  induction width generalizing word with
  | zero => simp [leBytes, leNat, Nat.mod_one]
  | succ width ih =>
      rw [leBytes, leNat_cons, ih, Nat.pow_succ', Nat.mod_mul, UInt8.toNat_ofNat']

/-- A field of a byte string is a digit of its little-endian value. -/
lemma leNat_slice (data : List UInt8) (start length : ℕ) :
    leNat (slice data start (start + length)) = leNat data / 256 ^ start % 256 ^ length := by
  rw [slice, Nat.add_sub_cancel_left, leNat_take, leNat_drop]

/-- A masked field of a word. -/
lemma and_field (value width shift : ℕ) :
    value &&& ((2 ^ width - 1) * 2 ^ shift) = value / 2 ^ shift % 2 ^ width * 2 ^ shift := by
  apply Nat.eq_of_testBit_eq
  intro i
  rw [Nat.testBit_and, Nat.testBit_mul_two_pow, Nat.testBit_mul_two_pow,
    Nat.testBit_two_pow_sub_one, Nat.testBit_mod_two_pow, Nat.testBit_div_two_pow]
  by_cases h : shift ≤ i
  · simp [h, Bool.and_comm]
  · simp [h]

/-- A word, written in two bytes and read again. -/
lemma le16_ofNat {value : ℕ} (h : value < 2 ^ 16) (rest : List UInt8) :
    le16 (UInt8.ofNat value :: UInt8.ofNat (value / 256) :: rest) 0 = value := by
  simp only [le16, slice, leNat, List.drop_zero, Nat.zero_add, List.take_succ_cons, List.take_zero,
    Nat.sub_zero, List.foldr_cons, List.foldr_nil, UInt8.toNat_ofNat']
  omega

/-! ## Chunks -/

/-- What repeated `read(size)` calls return, at most `fuel` of them. -/
def chunksFrom (size : ℕ) : ℕ → List UInt8 → List (List UInt8)
  | 0, _ => []
  | _ + 1, [] => []
  | fuel + 1, byte :: data =>
      (byte :: data).take size :: chunksFrom size fuel ((byte :: data).drop size)

/-- What `read(size)` returns until the data is used up. -/
def chunks (size : ℕ) (data : List UInt8) : List (List UInt8) := chunksFrom size data.length data

lemma flatten_chunksFrom {size : ℕ} (hsize : 0 < size) {fuel : ℕ} {data : List UInt8}
    (hfuel : data.length ≤ fuel) : (chunksFrom size fuel data).flatten = data := by
  induction fuel generalizing data with
  | zero =>
      obtain rfl := List.length_eq_zero_iff.1 (Nat.le_zero.1 hfuel)
      rfl
  | succ fuel ih =>
      cases data with
      | nil => rfl
      | cons byte data =>
          have hrest : ((byte :: data).drop size).length ≤ fuel := by
            simp only [List.length_drop, List.length_cons] at hfuel ⊢
            omega
          rw [chunksFrom, List.flatten_cons, ih hrest, List.take_append_drop]

/-- Nothing is lost between the chunks. -/
@[simp] lemma flatten_chunks {size : ℕ} (hsize : 0 < size) (data : List UInt8) :
    (chunks size data).flatten = data := flatten_chunksFrom hsize (Nat.le_refl _)

lemma length_chunksFrom_le {size count fuel : ℕ} {data : List UInt8}
    (h : data.length ≤ count * size) : (chunksFrom size fuel data).length ≤ count := by
  induction fuel generalizing count data with
  | zero => exact Nat.zero_le _
  | succ fuel ih =>
      cases data with
      | nil => exact Nat.zero_le _
      | cons byte data =>
          obtain ⟨count, rfl⟩ : ∃ k, count = k + 1 := by
            refine Nat.exists_eq_succ_of_ne_zero ?_
            rintro rfl
            simp at h
          have hrest : ((byte :: data).drop size).length ≤ count * size := by
            rw [Nat.succ_mul] at h
            rw [List.length_drop]
            omega
          rw [chunksFrom, List.length_cons]
          exact Nat.succ_le_succ (ih hrest)

lemma chunksFrom_eq_map {size : ℕ} (hsize : 0 < size) {count fuel : ℕ} {data : List UInt8}
    (hlength : data.length = count * size) (hfuel : data.length ≤ fuel) :
    chunksFrom size fuel data =
      (List.range count).map fun i => slice data (i * size) (i * size + size) := by
  induction count generalizing fuel data with
  | zero =>
      obtain rfl := List.length_eq_zero_iff.1 (hlength.trans (Nat.zero_mul size))
      cases fuel <;> rfl
  | succ count ih =>
      rw [Nat.succ_mul] at hlength
      have hne : data ≠ [] := by
        rintro rfl
        rw [List.length_nil] at hlength
        omega
      obtain ⟨byte, rest, rfl⟩ := List.exists_cons_of_ne_nil hne
      obtain ⟨fuel, rfl⟩ : ∃ k, fuel = k + 1 := ⟨fuel - 1, by simp at hfuel; omega⟩
      have hrest : ((byte :: rest).drop size).length = count * size := by
        rw [List.length_drop]
        omega
      rw [chunksFrom, ih hrest (by rw [List.length_drop]; omega), List.range_succ_eq_map,
        List.map_cons, List.map_map]
      congr 1
      · simp [slice]
      · refine List.map_congr_left fun i _ => ?_
        simp only [slice, List.drop_drop, Function.comp_apply, Nat.succ_mul,
          Nat.add_sub_cancel_left, Nat.add_comm size (i * size)]

/-- Data of a whole number of chunks is cut at their multiples. -/
lemma chunks_eq_map {size : ℕ} (hsize : 0 < size) {data : List UInt8} (h : size ∣ data.length) :
    chunks size data =
      (List.range (data.length / size)).map fun i => slice data (i * size) (i * size + size) :=
  chunksFrom_eq_map hsize (Nat.div_mul_cancel h).symm (Nat.le_refl _)

end Binary
