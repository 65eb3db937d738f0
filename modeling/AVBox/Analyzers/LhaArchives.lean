import AVBox.Analyzers.StructuralLimits
import AVBox.Lib.Damage
import Mathlib.Data.Nat.Bitwise

/-!
# LHA archives

The archives of stored members (`-lh0-`) with headers of level zero: members one behind the other,
up to the end of the data or a zero byte.  `lha_valid_iff_archive` says that `_lha` finds nothing
in exactly these, and `damage_found_iff` that it finds a byte that is replaced, unless it stands in
a size byte or behind the members that the node limit admits.
-/

namespace AVBox

namespace StructuralValidator

open Binary Fallible

/-! ## Members -/

/-- A member of an archive. -/
structure LhaMember where
  /-- The number of bytes in `header`. -/
  size : UInt8
  checksum : UInt8
  /-- What stands behind the size byte and the checksum byte. -/
  header : Bytes
  payload : Bytes
  length : header.length = size.toNat
  long : 22 ≤ size.toNat
  sum : (header.map UInt8.toNat).sum % 256 = checksum.toNat
  method : slice header 0 5 = ascii "-lh0-"
  packed : le32 header 5 = payload.length
  /-- The name and the CRC lie in the header. -/
  fits : 22 + u8 header 19 + 2 ≤ size.toNat + 2
  crc : le16 header (20 + u8 header 19) = crc16 payload

namespace LhaMember

/-- The header with the two bytes before it. -/
def fullHeader (member : LhaMember) : Bytes := member.size :: member.checksum :: member.header

def encode (member : LhaMember) : Bytes := member.fullHeader ++ member.payload

lemma length_fullHeader (member : LhaMember) :
    member.fullHeader.length = member.size.toNat + 2 := by
  rw [fullHeader, List.length_cons, List.length_cons, member.length]

lemma length_encode (member : LhaMember) :
    member.encode.length = member.size.toNat + 2 + member.payload.length := by
  rw [encode, List.length_append, length_fullHeader]

lemma encode_ne_nil (member : LhaMember) : member.encode ≠ [] := List.cons_ne_nil _ _

end LhaMember

/-- The members of an archive, one behind the other. -/
def encodeMembers (members : List LhaMember) : Bytes := members.flatMap LhaMember.encode

/-- What may stand behind the last member: nothing, or a zero byte and anything. -/
def Ends (rest : Bytes) : Prop := rest = [] ∨ ∃ tail, rest = 0 :: tail

/-- The data is an archive. -/
def IsArchive (data : Bytes) : Prop :=
  ∃ members rest, data = encodeMembers members ++ rest ∧ Ends rest

/-- The data begins with fewer than `count` members. -/
def FewerMembers (count : ℕ) (data : Bytes) : Prop :=
  ∀ members rest, data = encodeMembers members ++ rest → members.length < count

/-! ## What the loop reads -/

section Fields

variable {data : Bytes} {pos : ℕ}

/-- A text of ASCII bytes is read from these bytes only. -/
lemma decodeAscii_inj {first second : Bytes} (hascii : ∀ byte ∈ second, byte.toNat < 0x80)
    (h : PyStr.decodeAscii first = PyStr.decodeAscii second) : first = second := by
  induction second generalizing first with
  | nil => exact List.map_eq_nil_iff.1 h
  | cons byte second ih =>
      cases first with
      | nil => cases h
      | cons other first =>
          obtain ⟨hhead, htail⟩ := List.cons.inj h
          have hbyte := hascii byte List.mem_cons_self
          rw [ih (fun b hb => hascii b (List.mem_cons_of_mem _ hb)) htail]
          congr 1
          apply UInt8.toNat_inj.1
          dsimp only at hhead
          rw [if_pos hbyte] at hhead
          have hlt := other.toNat_lt
          split at hhead
          · have hval := congrArg Fin.val hhead
            simp only [Fin.ofNat] at hval
            omega
          · have hval := congrArg Fin.val hhead
            simp only [Fin.ofNat] at hval
            omega

/-- The header of the member at a place, with its size byte and its checksum byte. -/
def headerAt (data : Bytes) (pos : ℕ) : Bytes := slice data pos (pos + u8 data pos + 2)

/-- Where the payload of the member at a place starts. -/
def payloadAt (data : Bytes) (pos : ℕ) : ℕ := pos + u8 data pos + 2

/-- What the loop checks of the member at a place. -/
structure MemberFields (data : Bytes) (pos : ℕ) : Prop where
  long : 22 ≤ u8 data pos
  header : payloadAt data pos ≤ data.length
  method : slice (headerAt data pos) 2 7 = ascii "-lh0-"
  sum : ((slice (headerAt data pos) 2 (2 + u8 data pos)).map UInt8.toNat).sum % 256 =
    u8 (headerAt data pos) 1
  fits : 22 + u8 (headerAt data pos) 21 + 2 ≤ (headerAt data pos).length
  payload : payloadAt data pos + le32 (headerAt data pos) 7 ≤ data.length
  crc : crc16 (slice data (payloadAt data pos)
      (payloadAt data pos + le32 (headerAt data pos) 7)) =
    le16 (headerAt data pos) (22 + u8 (headerAt data pos) 21)

lemma sound_and_behind (h : MemberFields data pos) : SoundMember data pos ∧
    behindMember data pos = payloadAt data pos + le32 (headerAt data pos) 7 := by
  have hlong := h.long
  have hheader := h.header
  rw [payloadAt] at hheader
  have hmethod : PyStr.decodeAscii (slice (headerAt data pos) 2 7) = PyStr.ofString "-lh0-" := by
    rw [h.method]
    decide
  have hsum := h.sum
  have hfits := h.fits
  have hpayload := h.payload
  have hcrc := h.crc
  rw [SoundMember, behindMember, lhaMember]
  simp only [headerAt, payloadAt] at *
  rw [if_neg (by omega), if_neg (by omega), if_neg (not_not.2 hmethod), if_neg (not_not.2 hsum),
    if_neg (by omega), if_neg (by omega), if_neg (not_not.2 hcrc)]
  exact ⟨rfl, rfl⟩

lemma fields_of_sound (h : SoundMember data pos) : MemberFields data pos := by
  rw [SoundMember, lhaMember] at h
  simp only at h
  split at h
  · cases h
  split at h
  · cases h
  next hheader =>
  split at h
  · cases h
  next hmethod =>
  have hsum : ((slice (headerAt data pos) 2 (2 + u8 data pos)).map UInt8.toNat).sum % 256 =
      u8 (headerAt data pos) 1 := by
    rw [headerAt]
    by_contra hne
    rw [if_pos hne] at h
    split at h
    · simp [LhaState.report, LhaState.stop] at h
    split at h
    · simp [LhaState.report, LhaState.stop] at h
    split at h
    · simp [LhaState.report] at h
    · simp [LhaState.report] at h
  rw [headerAt] at hsum
  rw [if_neg (not_not.2 hsum)] at h
  split at h
  · cases h
  next hfits =>
  split at h
  · cases h
  next hpayload =>
  split at h
  · cases h
  next hcrc =>
  refine ⟨by omega, by rw [payloadAt]; omega, ?_, hsum, Nat.not_lt.1 hfits, Nat.not_lt.1 hpayload,
    not_not.1 hcrc⟩
  have hascii : ∀ byte ∈ ascii "-lh0-", byte.toNat < 0x80 := by decide +kernel
  refine decodeAscii_inj hascii ((not_not.1 hmethod).trans ?_)
  decide

lemma soundMember_iff : SoundMember data pos ↔ MemberFields data pos :=
  ⟨fields_of_sound, fun h => (sound_and_behind h).1⟩

/-- Slices in the rest of the data. -/
lemma slice_of_drop {rest : Bytes} (h : data.drop pos = rest) (start stop : ℕ) :
    slice data (pos + start) (pos + stop) = slice rest start stop := by
  rw [← h, slice, slice, List.drop_drop, Nat.add_sub_add_left]

lemma u8_of_drop {rest : Bytes} (h : data.drop pos = rest) : u8 data pos = u8 rest 0 := by
  rw [← h, u8, u8, List.getD_eq_getElem?_getD, List.getD_eq_getElem?_getD, List.getElem?_drop,
    Nat.add_zero]

/-- A slice of the beginning. -/
lemma slice_prefix (first rest : Bytes) : slice (first ++ rest) 0 first.length = first := by
  rw [slice, List.drop_zero, Nat.sub_zero, List.take_left]

/-- Offsets in the full header and behind its first two bytes. -/
lemma slice_cons_cons (first second : UInt8) (rest : Bytes) (start stop : ℕ) :
    slice (first :: second :: rest) (start + 2) (stop + 2) = slice rest start stop := by
  rw [slice, slice, Nat.add_sub_add_right]
  rfl

variable {member : LhaMember} {rest : Bytes}

/-- What the loop reads where a member stands. -/
lemma headerAt_of_member (h : data.drop pos = member.encode ++ rest) :
    u8 data pos = member.size.toNat ∧ headerAt data pos = member.fullHeader ∧
      le32 (headerAt data pos) 7 = member.payload.length ∧
      slice data (payloadAt data pos) (payloadAt data pos + le32 (headerAt data pos) 7) =
        member.payload := by
  have hsize : u8 data pos = member.size.toNat := u8_of_drop h
  have hheader : headerAt data pos = member.fullHeader := by
    have hslice := slice_of_drop h 0 member.fullHeader.length
    rw [LhaMember.encode, List.append_assoc, slice_prefix] at hslice
    rw [headerAt, hsize, ← hslice, member.length_fullHeader]
    rfl
  have hpacked : le32 (headerAt data pos) 7 = member.payload.length := by
    rw [hheader, ← member.packed, le32, le32, LhaMember.fullHeader]
    exact congrArg leNat (slice_cons_cons _ _ _ 5 9)
  refine ⟨hsize, hheader, hpacked, ?_⟩
  have hslice := slice_of_drop h member.fullHeader.length
    (member.fullHeader.length + member.payload.length)
  rw [LhaMember.encode, List.append_assoc, slice_append_right (Nat.le_refl _), Nat.sub_self,
    Nat.add_sub_cancel_left, slice_prefix] at hslice
  have hstart : payloadAt data pos = pos + member.fullHeader.length := by
    rw [payloadAt, hsize, member.length_fullHeader]
    omega
  rw [hpacked, hstart, Nat.add_assoc]
  exact hslice

/-- Nothing is found in a member. -/
lemma fields_of_member (h : data.drop pos = member.encode ++ rest) : MemberFields data pos := by
  obtain ⟨hsize, hheader, hpacked, hpayload⟩ := headerAt_of_member h
  have hlength : data.length - pos = member.encode.length + rest.length := by
    rw [← List.length_drop, h, List.length_append]
  rw [member.length_encode] at hlength
  have hlong := member.long
  have hname : u8 member.fullHeader 21 = u8 member.header 19 := rfl
  constructor
  · rw [hsize]
    exact hlong
  · rw [payloadAt, hsize]
    omega
  · rw [hheader, ← member.method, LhaMember.fullHeader]
    exact slice_cons_cons _ _ _ 0 5
  · have hall := slice_cons_cons member.size member.checksum member.header 0 member.size.toNat
    have hslice := slice_prefix member.header []
    rw [List.append_nil, member.length] at hslice
    rw [hheader, hsize, LhaMember.fullHeader, Nat.add_comm 2, show 2 = 0 + 2 from rfl]
    rw [hall, hslice, member.sum]
    rfl
  · rw [hheader, hname, member.length_fullHeader]
    exact member.fits
  · rw [hpacked, payloadAt, hsize]
    omega
  · rw [hpayload, hheader, hname, ← member.crc, le16, le16, LhaMember.fullHeader]
    have hslice := slice_cons_cons member.size member.checksum member.header
      (20 + u8 member.header 19) (20 + u8 member.header 19 + 2)
    rw [← hslice]
    congr 2 <;> omega

/-- Where nothing is found, a member stands. -/
lemma member_of_fields (h : MemberFields data pos) :
    ∃ member : LhaMember, ∃ rest, data.drop pos = member.encode ++ rest := by
  have hlong := h.long
  have hinside := h.header
  rw [payloadAt] at hinside
  have hlength : (headerAt data pos).length = u8 data pos + 2 := by
    rw [headerAt, Nat.add_assoc]
    exact length_slice_of_le (by omega)
  obtain ⟨size, checksum, header, hheader⟩ :
      ∃ size checksum header, headerAt data pos = size :: checksum :: header := by
    rcases hraw : headerAt data pos with _ | ⟨size, _ | ⟨checksum, header⟩⟩
    · rw [hraw, List.length_nil] at hlength
      omega
    · rw [hraw, List.length_singleton] at hlength
      omega
    · exact ⟨size, checksum, header, rfl⟩
  have hsplit : data.drop pos = headerAt data pos ++ data.drop (payloadAt data pos) := by
    rw [headerAt, slice, payloadAt, Nat.add_assoc, Nat.add_sub_cancel_left, ← List.drop_drop,
      List.take_append_drop]
  have hsize : size.toNat = u8 data pos := by
    rw [u8_of_drop hsplit, hheader]
    rfl
  have hmethod := h.method
  have hsum := h.sum
  have hfits := h.fits
  have hcrc := h.crc
  rw [hlength] at hfits
  rw [hheader, List.length_cons, List.length_cons] at hlength
  rw [hheader] at hmethod hsum hfits hcrc
  have hname : u8 (size :: checksum :: header) 21 = u8 header 19 := rfl
  have hpacked : le32 (size :: checksum :: header) 7 = le32 header 5 :=
    congrArg leNat (slice_cons_cons _ _ _ 5 9)
  have hpayload := h.payload
  rw [hheader, hpacked] at hpayload
  rw [hname] at hfits hcrc
  rw [hpacked] at hcrc
  refine ⟨⟨size, checksum, header, slice data (payloadAt data pos)
    (payloadAt data pos + le32 header 5), by omega, by omega, ?_, ?_, ?_, by omega, ?_⟩,
    data.drop (payloadAt data pos + le32 header 5), ?_⟩
  · have hslice := slice_prefix header []
    rw [List.append_nil, show header.length = u8 data pos by omega] at hslice
    have hall : slice (size :: checksum :: header) 2 (2 + u8 data pos) = header := by
      rw [Nat.add_comm]
      exact (slice_cons_cons size checksum header 0 (u8 data pos)).trans hslice
    rw [hall] at hsum
    exact hsum
  · rw [← hmethod]
    exact (slice_cons_cons size checksum header 0 5).symm
  · exact (length_slice_of_le hpayload).symm
  · rw [hcrc, le16, le16]
    have hslice := slice_cons_cons size checksum header (20 + u8 header 19) (20 + u8 header 19 + 2)
    rw [← hslice]
    congr 2 <;> omega
  · have htail : data.drop (payloadAt data pos) = slice data (payloadAt data pos)
        (payloadAt data pos + le32 header 5) ++ data.drop (payloadAt data pos + le32 header 5) := by
      rw [slice, Nat.add_sub_cancel_left, ← List.drop_drop, List.take_append_drop]
    rw [LhaMember.encode, LhaMember.fullHeader, List.append_assoc, ← htail, ← hheader]
    exact hsplit

/-- The place behind a member. -/
lemma behind_of_member (h : data.drop pos = member.encode ++ rest) :
    behindMember data pos = pos + member.encode.length := by
  obtain ⟨hsize, -, hpacked, -⟩ := headerAt_of_member h
  rw [(sound_and_behind (fields_of_member h)).2, hpacked, payloadAt, hsize, member.length_encode]
  omega

lemma drop_behind (h : data.drop pos = member.encode ++ rest) :
    data.drop (behindMember data pos) = rest := by
  rw [behind_of_member h, ← List.drop_drop, h, List.drop_left]

end Fields

/-! ## Archives -/

section Archives

variable {data : Bytes}

lemma ends_drop_iff {pos : ℕ} : Ends (data.drop pos) ↔ ¬MemberAt data pos := by
  rw [MemberAt]
  cases hdrop : data.drop pos with
  | nil =>
      have hlength := List.drop_eq_nil_iff.1 hdrop
      exact iff_of_true (.inl rfl) fun h => absurd h.1 (Nat.not_lt.2 hlength)
  | cons byte tail =>
      have hlength : pos < data.length := by
        by_contra hge
        rw [List.drop_eq_nil_of_le (Nat.not_lt.1 hge)] at hdrop
        cases hdrop
      have hbyte : u8 data pos = byte.toNat := u8_of_drop hdrop
      rw [hbyte]
      constructor
      · rintro (hnil | ⟨tail', hcons⟩)
        · cases hnil
        · obtain ⟨rfl, -⟩ := List.cons.inj hcons
          exact fun h => h.2 rfl
      · intro h
        have hzero : byte.toNat = 0 := by
          by_contra hne
          exact h ⟨hlength, hne⟩
        exact .inr ⟨tail, by rw [UInt8.toNat_inj.1
          (show byte.toNat = (0 : UInt8).toNat from hzero)]⟩

lemma memberAt_of_member {pos : ℕ} {member : LhaMember} {rest : Bytes}
    (h : data.drop pos = member.encode ++ rest) : MemberAt data pos := by
  by_contra hat
  have hlong := member.long
  rcases ends_drop_iff.2 hat with hnil | ⟨tail, hzero⟩
  · rw [h] at hnil
    exact member.encode_ne_nil (List.append_eq_nil_iff.1 hnil).1
  · rw [h] at hzero
    have hsize : member.size = 0 := (List.cons.inj hzero).1
    rw [hsize] at hlong
    cases hlong

lemma encodeMembers_cons (member : LhaMember) (members : List LhaMember) :
    encodeMembers (member :: members) = member.encode ++ encodeMembers members :=
  List.flatMap_cons

/-- Members that stand somewhere are sound, and those behind them are judged on their own. -/
lemma membersSound_append {members : List LhaMember} {rest : Bytes} {pos : ℕ}
    (h : data.drop pos = encodeMembers members ++ rest) (more : ℕ) :
    MembersSound data (members.length + more) pos ↔
      MembersSound data more (pos + (encodeMembers members).length) := by
  induction members generalizing pos with
  | nil => rw [List.length_nil, Nat.zero_add]; rfl
  | cons member members ih =>
      rw [encodeMembers_cons, List.append_assoc] at h
      have hbehind := drop_behind h
      rw [List.length_cons, Nat.succ_add, MembersSound, ih hbehind, behind_of_member h,
        encodeMembers_cons, List.length_append, ← Nat.add_assoc]
      exact ⟨fun hall => (hall (memberAt_of_member h)).2,
        fun hmore _ => ⟨soundMember_iff.2 (fields_of_member h), hmore⟩⟩

/-- The members up to a limit are sound exactly when they are members, up to the limit or the end of
the archive. -/
lemma membersSound_iff {count pos : ℕ} : MembersSound data count pos ↔
    ∃ members rest, data.drop pos = encodeMembers members ++ rest ∧ members.length ≤ count ∧
      (members.length = count ∨ Ends rest) := by
  induction count generalizing pos with
  | zero => exact iff_of_true trivial ⟨[], data.drop pos, rfl, Nat.le_refl _, .inl rfl⟩
  | succ count ih =>
      constructor
      · intro h
        by_cases hat : MemberAt data pos
        · obtain ⟨hsound, hmore⟩ := h hat
          obtain ⟨member, rest, hmember⟩ := member_of_fields (soundMember_iff.1 hsound)
          obtain ⟨members, rest', hmembers, hle, hend⟩ := ih.1 hmore
          rw [drop_behind hmember] at hmembers
          refine ⟨member :: members, rest', ?_, Nat.succ_le_succ hle, hend.imp (congrArg _) id⟩
          rw [hmember, hmembers, encodeMembers_cons, List.append_assoc]
        · exact ⟨[], data.drop pos, rfl, Nat.zero_le _, .inr (ends_drop_iff.2 hat)⟩
      · rintro ⟨members, rest, hmembers, hle, hend⟩
        have happend := membersSound_append hmembers (count + 1 - members.length)
        rw [Nat.add_sub_cancel' hle] at happend
        rw [happend]
        rcases hend with hcount | hend
        · rw [hcount, Nat.sub_self]
          trivial
        · refine membersSound_of_end (ends_drop_iff.1 ?_) _
          rw [← List.drop_drop, hmembers, List.drop_left]
          exact hend

/-- The validator finds nothing in exactly the archives, up to its node limit. -/
theorem lha_valid_iff_archive {limits : StructuralLimits}
    (hfewer : FewerMembers limits.maxNodes data) :
    (∃ v, lha limits data = .ok v ∧ v.state = .valid) ↔ IsArchive data := by
  rw [lha_valid_iff, membersSound_iff, List.drop_zero]
  constructor
  · rintro ⟨members, rest, hdata, -, hend⟩
    refine ⟨members, rest, hdata, hend.resolve_left fun hcount => ?_⟩
    exact absurd hcount (Nat.ne_of_lt (hfewer members rest hdata))
  · rintro ⟨members, rest, hdata, hend⟩
    exact ⟨members, rest, hdata, Nat.le_of_lt (hfewer members rest hdata), .inr hend⟩

lemma length_encodeMembers (members : List LhaMember) :
    24 * members.length ≤ (encodeMembers members).length := by
  induction members with
  | nil => exact Nat.le_refl _
  | cons member members ih =>
      have hlong := member.long
      rw [encodeMembers_cons, List.length_append, List.length_cons, member.length_encode]
      omega

/-- A member takes 24 bytes at least. -/
lemma fewerMembers_of_short {count : ℕ} (h : data.length < 24 * count) :
    FewerMembers count data := by
  rintro members rest rfl
  have hmembers := length_encodeMembers members
  rw [List.length_append] at h
  omega

/-- An archive of the files `a` and `b.txt`. -/
def twoMembers : Bytes :=
  [23, 243, 45, 108, 104, 48, 45, 1, 0, 0, 0, 1, 0, 0, 0, 0, 0, 33, 0, 32, 0, 1, 97, 192, 48, 65,
   27, 164, 45, 108, 104, 48, 45, 11, 0, 0, 0, 11, 0, 0, 0, 0, 0, 33, 0, 32, 0, 5, 98, 46, 116,
   120, 116, 193, 57, 104, 101, 108, 108, 111, 32, 119, 111, 114, 108, 100, 0]

/-- The validator finds nothing in it. -/
theorem twoMembers_archive : IsArchive twoMembers := by
  refine (@lha_valid_iff_archive twoMembers .default (fewerMembers_of_short (by decide))).1 ?_
  have hvalid : (lha .default twoMembers).toOption.any (fun v => decide (v.state = .valid)) =
      true := by decide +kernel
  cases hv : lha .default twoMembers with
  | error exc =>
      rw [hv] at hvalid
      cases hvalid
  | ok v =>
      rw [hv] at hvalid
      exact ⟨v, rfl, of_decide_eq_true hvalid⟩

end Archives

/-! ## Damage -/

/-- Bit 15 of what `crc16Bit` returns is the bit that it shifts out. -/
lemma crc16Bit_injective {first second : ℕ} (hfirst : first < 2 ^ 16) (hsecond : second < 2 ^ 16)
    (h : crc16Bit first = crc16Bit second) : first = second := by
  have hhigh : ∀ {crc : ℕ}, crc < 2 ^ 16 → (crc >>> 1).testBit 15 = false := by
    intro crc hcrc
    refine Nat.testBit_lt_two_pow ?_
    rw [Nat.shiftRight_eq_div_pow]
    omega
  have hbit := congrArg (Nat.testBit · 15) h
  have hpoly : Nat.testBit 0xA001 15 = true := by decide
  have hzero : Nat.testBit 0 15 = false := by decide
  simp only [crc16Bit, Nat.testBit_xor, hhigh hfirst, hhigh hsecond, Bool.false_xor,
    apply_ite (Nat.testBit · 15), hpoly, hzero] at hbit
  have hparity : first % 2 = second % 2 := by
    by_cases hone : first % 2 = 1
    · by_cases hone' : second % 2 = 1
      · omega
      · rw [if_pos hone, if_neg hone'] at hbit
        cases hbit
    · by_cases hone' : second % 2 = 1
      · rw [if_neg hone, if_pos hone'] at hbit
        cases hbit
      · omega
  rw [crc16Bit, crc16Bit, hparity] at h
  have hshift := Nat.xor_left_inj.1 h
  rw [Nat.shiftRight_eq_div_pow, Nat.shiftRight_eq_div_pow] at hshift
  omega

lemma crc16Bit_lt {crc : ℕ} (h : crc < 2 ^ 16) : crc16Bit crc < 2 ^ 16 := by
  refine Nat.xor_lt_two_pow ?_ ?_
  · rw [Nat.shiftRight_eq_div_pow]
    omega
  · split <;> decide

/-- The eight passes for a byte. -/
lemma crc16Byte_injective {first second : ℕ} (hfirst : first < 2 ^ 16) (hsecond : second < 2 ^ 16)
    (count : ℕ) (h : crc16Bit^[count] first = crc16Bit^[count] second) : first = second := by
  induction count generalizing first second with
  | zero => exact h
  | succ count ih =>
      exact crc16Bit_injective hfirst hsecond (ih (crc16Bit_lt hfirst) (crc16Bit_lt hsecond) h)

lemma xor_byte_lt {crc : ℕ} (h : crc < 2 ^ 16) (byte : UInt8) : crc ^^^ byte.toNat < 2 ^ 16 :=
  Nat.xor_lt_two_pow h (Nat.lt_trans byte.toNat_lt (by decide))

/-- CRC-16 tells two byte strings apart that differ in one byte. -/
theorem crc16_ne {place : ℕ} {data data' : Bytes} (h : Damaged place data data') :
    crc16 data' ≠ crc16 data := by
  refine h.foldl_ne (I := fun crc => crc < 2 ^ 16) ?_ ?_ ?_ (by decide)
  · intro crc byte hcrc
    have hpasses : ∀ count value, value < 2 ^ 16 → crc16Bit^[count] value < 2 ^ 16 := by
      intro count
      induction count with
      | zero => exact fun _ hvalue => hvalue
      | succ count ih => exact fun value hvalue => ih _ (crc16Bit_lt hvalue)
    exact hpasses 8 _ (xor_byte_lt hcrc byte)
  · intro crc crc' byte hcrc hcrc' heq
    exact Nat.xor_left_inj.1
      (crc16Byte_injective (xor_byte_lt hcrc byte) (xor_byte_lt hcrc' byte) 8 heq)
  · intro crc byte byte' hcrc heq
    exact UInt8.toNat_inj.1 (Nat.xor_right_inj.1
      (crc16Byte_injective (xor_byte_lt hcrc byte) (xor_byte_lt hcrc byte') 8 heq))

section Damage

variable {data damaged : Bytes}

/-- A member with a byte replaced that is not its size byte is no member. -/
lemma not_member_of_damaged {member member' : LhaMember} {rest rest' : Bytes} {place : ℕ}
    (h : Damaged place (member.encode ++ rest) (member'.encode ++ rest')) (hplace : 0 < place)
    (hinside : place < member.encode.length) : False := by
  have hsize : member'.size = member.size := (List.cons.inj (h.take_eq hplace)).1
  have hlength : member'.header.length = member.header.length := by
    rw [member.length, member'.length, hsize]
  rw [member.length_encode] at hinside
  rw [LhaMember.encode, LhaMember.encode, LhaMember.fullHeader, LhaMember.fullHeader] at h
  simp only [List.cons_append, List.append_assoc] at h
  by_cases hchecksum : place = 1
  · -- the header is the same, so its sum is, and nothing differs
    have hrest := h.drop_eq (show place < 2 by omega)
    have hheader : member'.header = member.header := (List.append_inj hrest hlength).1
    have hbyte : member'.checksum = member.checksum := by
      apply UInt8.toNat_inj.1
      rw [← member'.sum, hheader, member.sum]
    refine h.ne ?_
    rw [hsize, hbyte]
    exact congrArg _ (congrArg _ hrest.symm)
  have hbyte : member'.checksum = member.checksum := by
    have htwo := h.take_eq (show 2 ≤ place by omega)
    exact (List.cons.inj (List.cons.inj htwo).2).1
  have hbehind := h.drop (show 2 ≤ place by omega)
  simp only [List.drop_succ_cons, List.drop_zero] at hbehind
  by_cases hheader : place < member.size.toNat + 2
  · have hdamaged := hbehind.take (show place - 2 < member.header.length by
      rw [member.length]
      omega)
    rw [List.take_left, ← hlength, List.take_left] at hdamaged
    refine hdamaged.sum_ne ?_
    rw [member.sum, member'.sum, hbyte]
  · have hsame : member'.header = member.header := by
      have htake := hbehind.take_eq (show member.header.length ≤ place - 2 by
        rw [member.length]
        omega)
      rwa [List.take_left, ← hlength, List.take_left] at htake
    have hpacked : member'.payload.length = member.payload.length := by
      rw [← member.packed, ← member'.packed, hsame]
    have hpayload := hbehind.drop (show member.header.length ≤ place - 2 by
      rw [member.length]
      omega)
    rw [List.drop_left, ← hlength, List.drop_left, hlength] at hpayload
    have hdamaged := hpayload.take (show place - 2 - member.header.length < member.payload.length by
      rw [member.length]
      omega)
    rw [List.take_left, ← hpacked, List.take_left] at hdamaged
    refine crc16_ne hdamaged ?_
    rw [← member.crc, ← member'.crc, hsame]

/-- The byte at the place stands in the member behind `before`, and it is not its size byte. -/
structure InMember (data : Bytes) (before : List LhaMember) (place : ℕ) : Prop where
  member : ∃ member rest, data = encodeMembers before ++ (LhaMember.encode member ++ rest) ∧
    place < (encodeMembers before).length + member.encode.length
  behind : (encodeMembers before).length < place

/-- A replaced byte in a member of a valid archive is found if and only if the validator comes to
the member. -/
theorem damage_found_iff {limits : StructuralLimits} {before : List LhaMember} {place : ℕ}
    (hvalid : ∃ v, lha limits data = .ok v ∧ v.state = .valid)
    (hmember : InMember data before place) (hdamage : Damaged place data damaged) :
    (∃ v, lha limits damaged = .ok v ∧ v.state ≠ .valid) ↔ before.length < limits.maxNodes := by
  obtain ⟨⟨member, rest, rfl, hinside⟩, hbehind⟩ := hmember
  have hbefore := hdamage.take_eq (Nat.le_of_lt hbehind)
  rw [List.take_left] at hbefore
  have hsplit : damaged = encodeMembers before ++ damaged.drop (encodeMembers before).length := by
    have htake := List.take_append_drop (encodeMembers before).length damaged
    rw [hbefore] at htake
    exact htake.symm
  have hrest := hdamage.drop (Nat.le_of_lt hbehind)
  rw [List.drop_left] at hrest
  have hiff : (∃ v, lha limits damaged = .ok v ∧ v.state ≠ .valid) ↔
      ¬MembersSound damaged limits.maxNodes 0 := by
    rw [← lha_valid_iff]
    obtain ⟨v, hv⟩ := lha_ok limits damaged
    rw [hv]
    simp
  rw [hiff]
  constructor
  · intro hunsound
    by_contra hle
    refine hunsound (membersSound_iff.2 ?_)
    refine ⟨before.take limits.maxNodes, encodeMembers (before.drop limits.maxNodes) ++
      damaged.drop (encodeMembers before).length, ?_, ?_, .inl ?_⟩
    · rw [List.drop_zero, ← List.append_assoc, encodeMembers, encodeMembers, ← List.flatMap_append,
        List.take_append_drop]
      exact hsplit
    · exact List.length_take_le _ _
    · rw [List.length_take, Nat.min_eq_left (Nat.not_lt.1 hle)]
  · intro hlt hsound
    have hmore := (@membersSound_append _ _ _ 0 hsplit (limits.maxNodes - before.length)).1
    rw [Nat.add_sub_cancel' (Nat.le_of_lt hlt), Nat.zero_add] at hmore
    obtain ⟨members, rest', hmembers, -, hend⟩ := membersSound_iff.1 (hmore hsound)
    -- the size byte is still there, so a member must be
    have hfirst := hrest.take_eq (show 1 ≤ place - (encodeMembers before).length by omega)
    have hsize : damaged.drop (encodeMembers before).length ≠ [] ∧
        ∀ tail, damaged.drop (encodeMembers before).length ≠ 0 :: tail := by
      have hlong := member.long
      constructor
      · intro hnil
        rw [hnil] at hfirst
        cases hfirst
      · intro tail hzero
        rw [hzero] at hfirst
        have hsame : 0 = member.size := (List.cons.inj hfirst).1
        rw [← hsame] at hlong
        cases hlong
    cases members with
    | nil =>
        rw [show encodeMembers [] = [] from rfl, List.nil_append] at hmembers
        rcases hend with hcount | hnil | ⟨tail, hzero⟩
        · rw [List.length_nil] at hcount
          omega
        · exact hsize.1 (hmembers.trans hnil)
        · exact hsize.2 tail (hmembers.trans hzero)
    | cons member' members =>
        rw [hmembers, encodeMembers_cons, List.append_assoc] at hrest
        exact not_member_of_damaged hrest (by omega) (by omega)

/-- The empty member, taken apart. -/
def storedNothing : LhaMember where
  size := 22
  checksum := 94
  header := ascii "-lh0-" ++ List.replicate 17 0
  payload := []
  length := by decide
  long := by decide
  sum := by decide +kernel
  method := by decide
  packed := by decide
  fits := by decide
  crc := by decide

/-- Its checksum byte, replaced. -/
theorem emptyMember_damage_found :
    (∃ v, lha .default (emptyMember.set 1 0) = .ok v ∧ v.state ≠ .valid) ↔
      ([] : List LhaMember).length < StructuralLimits.default.maxNodes :=
  damage_found_iff
    (lha_valid_iff.2 (membersSound_iff.2
      ⟨[storedNothing], [], by decide, by decide, .inr (.inl rfl)⟩))
    ⟨⟨storedNothing, [], by decide, by decide⟩, by decide⟩ (.set (by decide) (by decide))

/-- With a limit of one member the second one is not looked at. -/
theorem second_member_not_examined :
    ¬∀ (limits : StructuralLimits) (data damaged : Bytes) (before : List LhaMember) (place : ℕ),
      (∃ v, lha limits data = .ok v ∧ v.state = .valid) → InMember data before place →
        Damaged place data damaged → ∃ v, lha limits damaged = .ok v ∧ v.state ≠ .valid := by
  intro h
  have hone : ∀ rest, ∃ v, lha { StructuralLimits.default with maxNodes := 1 }
      (emptyMember ++ rest) = .ok v ∧ v.state = .valid := fun rest =>
    lha_valid_iff.2 (membersSound_iff.2 ⟨[storedNothing], rest, rfl, by decide, .inl rfl⟩)
  obtain ⟨v, hv, hstate⟩ := h _ (emptyMember ++ emptyMember) (emptyMember ++ emptyMember.set 1 0)
    [storedNothing] 25 (hone _) ⟨⟨storedNothing, [], by decide, by decide⟩, by decide⟩
    ⟨emptyMember ++ [22], 94, 0, emptyMember.drop 2, by decide, by decide, by decide, by decide⟩
  obtain ⟨v', hv', hstate'⟩ := hone (emptyMember.set 1 0)
  obtain rfl := Except.ok.inj (hv.symm.trans hv')
  exact hstate hstate'

end Damage

end StructuralValidator

end AVBox
