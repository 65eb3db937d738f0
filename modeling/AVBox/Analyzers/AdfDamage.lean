import AVBox.Analyzers.AdfChecks
import AVBox.Lib.Damage

/-!
# Damage to one byte of an ADF image

Changing one byte changes the checksum of the part of the image it lies in.  Whatever else the byte
decides (the variant, a pointer, the kind of an entry), the validator comes to the changed part as
before, so a valid image is not reported as valid any more.

It is reported as something else, unless a changed pointer in the root block leads into directories
that nest deeper than there are call frames (`damage_reported_iff`).
-/

namespace AVBox

namespace StructuralValidator

open Binary Fallible Walk

/-! ## Checksums -/

section Checksums

variable {place : ℕ} {data damaged : Bytes}

/-- A block whose checksum is right has a wrong one after the damage. -/
lemma blockChecksum_damaged (h : Damaged place data damaged) (hplace : place < 512)
    (hlength : 512 ≤ data.length) (hsum : Adf.blockChecksum data = true) :
    Adf.blockChecksum damaged = false := by
  have hsmall : Damaged.Small _ := @Damaged.sum_be32 place data damaged h 128 hplace hlength
  rw [Adf.blockChecksum, decide_eq_true_eq] at hsum
  rw [Adf.blockChecksum, decide_eq_false_iff_not]
  intro hsum'
  obtain ⟨hne, hlow, hhigh⟩ := hsmall
  omega

/-- Adding with an end-around carry is adding modulo `2 ^ 32 - 1`. -/
lemma carry_add {total word : ℕ} (htotal : total < 2 ^ 32) (hword : word < 2 ^ 32) :
    let sum := (total + word) % 2 ^ 32
    let next := if sum < total then (sum + 1) % 2 ^ 32 else sum
    next < 2 ^ 32 ∧ next % (2 ^ 32 - 1) = (total + word) % (2 ^ 32 - 1) := by
  simp only []
  split <;> omega

lemma foldl_carry (words : List ℕ) (hwords : ∀ word ∈ words, word < 2 ^ 32) {total : ℕ}
    (htotal : total < 2 ^ 32) :
    (words.foldl (fun total word =>
      let sum := (total + word) % 2 ^ 32
      if sum < total then (sum + 1) % 2 ^ 32 else sum) total) % (2 ^ 32 - 1) =
        (total + words.sum) % (2 ^ 32 - 1) := by
  induction words generalizing total with
  | nil => rfl
  | cons word words ih =>
      obtain ⟨hword, hwords⟩ := List.forall_mem_cons.1 hwords
      obtain ⟨hnext, hsum⟩ := carry_add htotal hword
      rw [List.foldl_cons, ih hwords hnext, List.sum_cons, Nat.add_mod, hsum, ← Nat.add_mod,
        Nat.add_assoc]

/-- What a right checksum of the boot block says about its words. -/
lemma sum_of_bootChecksum {block : Bytes} (h : amigaBootChecksum block = true) :
    (((List.range 256).map fun i => be32 block (4 * i)).sum) % (2 ^ 32 - 1) = 0 := by
  unfold amigaBootChecksum at h
  split at h
  · cases h
  have hwords : ∀ word ∈ (List.range 256).map fun i => be32 block (4 * i), word < 2 ^ 32 := by
    intro word hword
    obtain ⟨i, -, rfl⟩ := List.mem_map.1 hword
    exact be32_lt block (4 * i)
  have hfold := foldl_carry _ hwords (show 0 < 2 ^ 32 by decide)
  rw [List.foldl_map, Nat.zero_add] at hfold
  exact hfold.symm.trans (congrArg (· % (2 ^ 32 - 1)) (of_decide_eq_true h))

/-- A boot block whose checksum is right has a wrong one after the damage. -/
lemma bootChecksum_damaged (h : Damaged place data damaged) (hplace : place < 1024)
    (hlength : 1024 ≤ data.length) (hsum : amigaBootChecksum data = true) :
    amigaBootChecksum damaged ≠ true := by
  intro hsum'
  obtain ⟨hne, hlow, hhigh⟩ : Damaged.Small _ :=
    @Damaged.sum_be32 place data damaged h 256 hplace hlength
  have hold := sum_of_bootChecksum hsum
  have hnew := sum_of_bootChecksum hsum'
  omega

end Checksums

/-! ## The walk through a damaged image -/

/-- The images differ in one block only, and it fails its check. -/
structure BrokenAt (broken : ℕ) (data damaged : Bytes) : Prop where
  same : ∀ {key}, key ≠ broken → Adf.blockAt damaged key = Adf.blockAt data key
  fails : ∀ {payload}, Adf.block damaged broken = .ok payload → Adf.blockChecksum payload = false

section Walks

variable {broken : ℕ} {data damaged : Bytes}

lemma BrokenAt.not_sound (h : BrokenAt broken data damaged) (hinside : IsBlock broken) :
    Adf.blockChecksum (Adf.blockAt damaged broken) ≠ true := by
  have hblock : Adf.block damaged broken = .ok (Adf.blockAt damaged broken) :=
    block_eq_ok.2 ⟨by rw [not_or, Nat.not_lt, Nat.not_le]; exact hinside, rfl⟩
  rw [h.fails hblock]
  exact Bool.false_ne_true

lemma BrokenAt.chainKeys (h : BrokenAt broken data damaged) (remaining key : ℕ) :
    AgreeTo broken (Adf.chainKeys data remaining key) (Adf.chainKeys damaged remaining key) := by
  induction remaining generalizing key with
  | zero =>
      rw [Adf.chainKeys.eq_def, Adf.chainKeys.eq_def damaged]
      exact .refl _
  | succ remaining ih =>
      rw [Adf.chainKeys.eq_def, Adf.chainKeys.eq_def damaged]
      simp only []
      by_cases hzero : key = 0
      · rw [if_pos hzero, if_pos hzero]
        exact .nil
      rw [if_neg hzero, if_neg hzero]
      by_cases hkey : key = broken
      · subst hkey
        exact .cut
      · rw [h.same hkey]
        refine .cons ?_
        split
        · exact .nil
        · exact ih _

lemma BrokenAt.keys (h : BrokenAt broken data damaged) (directory : Bytes) :
    AgreeTo broken (Adf.keys data directory) (Adf.keys damaged directory) :=
  .flatMap _ fun _ _ => h.chainKeys _ _

/-- The walk fails at the broken block. -/
lemma BrokenAt.look_broken (h : BrokenAt broken data damaged) {maxNodes : ℕ}
    {variant : AdfVariant} (state : AdfState) (turn : Turn AdfState ℕ) :
    adfLook maxNodes damaged variant state broken ≠ .ok turn := by
  intro hlook
  obtain ⟨-, hinside, hsound, -⟩ := adfLook_eq_ok hlook
  exact h.not_sound hinside hsound

lemma BrokenAt.ne_of_look (h : BrokenAt broken data damaged) {maxNodes key : ℕ}
    {variant : AdfVariant} {state : AdfState} {turn : Turn AdfState ℕ}
    (hlook : adfLook maxNodes damaged variant state key = .ok turn) : key ≠ broken := by
  rintro rfl
  exact h.look_broken _ _ hlook

/-- What the walk opens before it comes to the broken block does not depend on the variant. -/
lemma BrokenAt.agreeTurns (h : BrokenAt broken data damaged) {maxNodes key : ℕ}
    {variant variant' : AdfVariant} {state state' : AdfState} {turn turn' : Turn AdfState ℕ}
    (hlook : adfLook maxNodes data variant state key = .ok turn)
    (hlook' : adfLook maxNodes damaged variant' state' key = .ok turn') :
    AgreeTurns broken turn turn' := by
  obtain ⟨-, -, -, hturn⟩ := adfLook_eq_ok hlook
  obtain ⟨-, -, -, hturn'⟩ := adfLook_eq_ok hlook'
  have hsame := h.same (h.ne_of_look hlook')
  cases hturn with
  | directory hkind =>
      cases hturn' with
      | directory _ =>
          rw [hsame]
          exact .enter (h.keys _)
      | file hkind' _ =>
          rw [hsame, hkind] at hkind'
          exact absurd hkind' (by decide)
      | other hkind' _ => exact absurd (hsame ▸ hkind) hkind'
  | file hkind _ =>
      cases hturn' with
      | directory hkind' =>
          rw [hsame, hkind] at hkind'
          exact absurd hkind' (by decide)
      | file _ _ => exact .stay
      | other _ hkind' => exact absurd (hsame ▸ hkind) hkind'
  | other hdir hfile =>
      cases hturn' with
      | directory hkind' => exact absurd (hsame ▸ hkind') hdir
      | file hkind' _ => exact absurd (hsame ▸ hkind') hfile
      | other _ _ => exact .stay

/-- A file whose blocks are accepted in the damaged image is accepted in the same way in the image
itself, and does not need the broken block if the blocks have checksums. -/
lemma BrokenAt.adfFileBlocks (h : BrokenAt broken data damaged) {variant : AdfVariant}
    {key wanted total : ℕ} {pointers : List ℕ} {state state' : AdfState}
    (hblocks : adfFileBlocks damaged variant key wanted pointers total state = .ok state') :
    adfFileBlocks data variant key wanted pointers total state = .ok state' ∧
      (variant = .ofs → broken ∉ neededBlocks data variant wanted pointers total) := by
  induction pointers generalizing total state with
  | nil => exact ⟨hblocks, fun _ => List.not_mem_nil⟩
  | cons pointer rest ih =>
      rw [StructuralValidator.adfFileBlocks] at hblocks ⊢
      split at hblocks
      · cases hblocks
      next hfresh =>
      rw [if_neg hfresh]
      simp only [] at hblocks ⊢
      obtain ⟨payload, hblock, hblocks⟩ := bind_eq_ok.1 hblocks
      obtain ⟨hinside, rfl⟩ := isBlock_of_block hblock
      have hblock' : Adf.block data pointer = .ok (Adf.blockAt data pointer) :=
        block_eq_ok.2 ⟨by rw [not_or, Nat.not_lt, Nat.not_le]; exact hinside, rfl⟩
      rw [hblock']
      simp only [bind, Except.bind, neededBlocks]
      split at hblocks
      · cases hblocks
      next hchecked =>
      cases variant with
      | ffs =>
          simp only [reduceCtorEq, false_and, if_false] at hblocks ⊢
          split at hblocks
          · next hlong =>
              rw [if_pos hlong]
              exact ⟨hblocks, fun hofs => (by cases hofs)⟩
          · next hmore =>
              rw [if_neg hmore]
              exact ⟨(ih hblocks).1, fun hofs => (by cases hofs)⟩
      | ofs =>
          have hne : pointer ≠ broken := by
            rintro rfl
            exact hchecked ⟨rfl, .inr (.inr (.inr (h.fails hblock)))⟩
          rw [h.same hne] at hblocks hchecked
          rw [if_neg hchecked]
          simp only [if_true] at hblocks ⊢
          split at hblocks
          · next hlong =>
              rw [if_pos hlong, if_pos hlong]
              exact ⟨hblocks, fun _ hmem => hne (List.mem_singleton.1 hmem).symm⟩
          · next hmore =>
              rw [if_neg hmore, if_neg hmore]
              obtain ⟨hrest, hneeded⟩ := ih hblocks
              exact ⟨hrest, fun _ => List.not_mem_cons_of_ne_of_not_mem hne.symm (hneeded rfl)⟩

/-- The walk does the same with an entry as in the image itself. -/
lemma BrokenAt.sameTurns (h : BrokenAt broken data damaged) {maxNodes key : ℕ}
    {variant : AdfVariant} {state : AdfState} {turn turn' : Turn AdfState ℕ}
    (hlook : adfLook maxNodes data variant state key = .ok turn)
    (hlook' : adfLook maxNodes damaged variant state key = .ok turn') :
    SameTurns broken turn turn' := by
  obtain ⟨-, -, -, hturn⟩ := adfLook_eq_ok hlook
  obtain ⟨-, -, -, hturn'⟩ := adfLook_eq_ok hlook'
  have hsame := h.same (h.ne_of_look hlook')
  cases hturn with
  | directory hkind =>
      cases hturn' with
      | directory _ =>
          rw [hsame]
          exact .enter (h.keys _)
      | file hkind' _ =>
          rw [hsame, hkind] at hkind'
          exact absurd hkind' (by decide)
      | other hkind' _ => exact absurd (hsame ▸ hkind) hkind'
  | file hkind hblocks =>
      cases hturn' with
      | directory hkind' =>
          rw [hsame, hkind] at hkind'
          exact absurd hkind' (by decide)
      | file _ hblocks' =>
          rw [hsame] at hblocks'
          obtain rfl := Except.ok.inj (hblocks.symm.trans (h.adfFileBlocks hblocks').1)
          exact .stay
      | other _ hkind' => exact absurd (hsame ▸ hkind) hkind'
  | other hdir hfile =>
      cases hturn' with
      | directory hkind' => exact absurd (hsame ▸ hkind') hdir
      | file hkind' _ => exact absurd (hsame ▸ hkind') hfile
      | other _ _ => exact .stay

/-- The walk through the damaged image opens no more directories than the walk through a valid
image. -/
lemma BrokenAt.shallow (h : BrokenAt broken data damaged) (hroot : Adf.rootKey ≠ broken)
    {limits : StructuralLimits} {frames : ℕ} {variant : AdfVariant}
    (hvalid : AdfValid limits frames data variant) (variant' : AdfVariant) :
    AdfShallow limits.maxNodes frames damaged variant' := by
  obtain ⟨final, hdone⟩ := hvalid.done
  unfold AdfShallow
  rw [h.same hroot]
  exact openAtMost_of_agree hdone (h.keys _) h.look_broken fun hlook hlook' =>
    h.agreeTurns hlook hlook'

end Walks

/-! ## What the validator comes to -/

section Damage

variable {limits : StructuralLimits} {frames place : ℕ} {data damaged : Bytes}
  {variant : AdfVariant}

/-- The walk through the image comes to the block of an entry. -/
def Visits (limits : StructuralLimits) (data : Bytes) (variant : AdfVariant) (key : ℕ) : Prop :=
  ∃ rest stack state, Reaches (adfLook limits.maxNodes data variant)
    ⟨[Adf.keys data (Adf.blockAt data Adf.rootKey)], ⟨0, [Adf.rootKey]⟩⟩
    ⟨(key :: rest) :: stack, state⟩

/-- The byte is in a part of the image that the validator reads and that a checksum covers. -/
inductive Covered (limits : StructuralLimits) (data : Bytes) (variant : AdfVariant) (place : ℕ) :
    Prop
  | boot : 3 ≤ place → place < 1024 → Covered limits data variant place
  | root : place / 512 = Adf.rootKey → Covered limits data variant place
  | bitmap : place / 512 ∈ bitmapKeys (Adf.blockAt data Adf.rootKey) →
      Covered limits data variant place
  | header : Visits limits data variant (place / 512) → Covered limits data variant place
  | dataBlock {key : ℕ} : variant = .ofs → Visits limits data variant key →
      Adf.signedBe32 (Adf.blockAt data key) 508 = -3 → place / 512 ∈ usedBlocks data variant key →
      Covered limits data variant place

lemma blockAt_damaged (h : Damaged place data damaged) {key : ℕ} (hkey : key ≠ place / 512) :
    Adf.blockAt damaged key = Adf.blockAt data key := by
  refine h.slice_eq ?_
  omega

lemma blockChecksum_blockAt (h : Damaged place data damaged)
    (hsize : data.length = Adf.standardSize)
    (hsum : Adf.blockChecksum (Adf.blockAt data (place / 512)) = true) :
    Adf.blockChecksum (Adf.blockAt damaged (place / 512)) = false := by
  have hlong := h.lt_length
  rw [hsize] at hlong
  have hlength : (Adf.blockAt data (place / 512)).length = 512 := by
    rw [Adf.blockAt, length_slice, hsize]
    unfold Adf.standardSize at *
    omega
  refine blockChecksum_damaged (h.slice ?_ ?_) ?_ hlength.ge hsum
  · omega
  · omega
  · omega

/-- A damaged block with a checksum is broken. -/
lemma brokenAt_of_checksum (h : Damaged place data damaged)
    (hsize : data.length = Adf.standardSize)
    (hsum : Adf.blockChecksum (Adf.blockAt data (place / 512)) = true) :
    BrokenAt (place / 512) data damaged where
  same := blockAt_damaged h
  fails hblock := by
    obtain ⟨-, rfl⟩ := isBlock_of_block hblock
    exact blockChecksum_blockAt h hsize hsum

/-- The walk does not come to the boot block. -/
lemma brokenAt_of_boot (h : Damaged place data damaged) (hplace : place < 1024) :
    BrokenAt (place / 512) data damaged where
  same := blockAt_damaged h
  fails hblock := by
    have hinside := (isBlock_of_block hblock).1.1
    omega

/-- Behind the DOS type a damaged image has the same variant. -/
lemma variantOf_damaged (h : Damaged place data damaged) (hplace : 4 ≤ place) :
    Adf.variantOf damaged = Adf.variantOf data := by
  have hhead : damaged.take 4 = data.take 4 := h.take_eq hplace
  have hdos : damaged.take 3 = data.take 3 := h.take_eq (by omega)
  have htype : u8 damaged 3 = u8 data 3 := by
    have hget : (damaged.take 4).getD 3 0 = (data.take 4).getD 3 0 := by rw [hhead]
    simp only [List.getD_eq_getElem?_getD, List.getElem?_take_of_lt (show 3 < 4 by decide)] at hget
    simp only [u8, List.getD_eq_getElem?_getD, hget]
  rw [Adf.variantOf, Adf.variantOf, h.length_eq, hdos, htype]

/-- What the walk has looked at in a valid image. -/
lemma look_of_visits (hvalid : AdfValid limits frames data variant) {key : ℕ} {rest : List ℕ}
    {stack : List (List ℕ)} {state : AdfState}
    (h : Reaches (adfLook limits.maxNodes data variant)
      ⟨[Adf.keys data (Adf.blockAt data Adf.rootKey)], ⟨0, [Adf.rootKey]⟩⟩
      ⟨(key :: rest) :: stack, state⟩) :
    ∃ turn, adfLook limits.maxNodes data variant state key = .ok turn := by
  obtain ⟨final, hdone⟩ := hvalid.done
  exact look_ok_of_reaches hdone h

/-- Every part that is covered, the boot block apart, is a block whose checksum is right. -/
lemma Covered.cases (h : Covered limits data variant place)
    (hvalid : AdfValid limits frames data variant) :
    place < 1024 ∨ Adf.blockChecksum (Adf.blockAt data (place / 512)) = true := by
  cases h with
  | boot _ hplace => exact .inl hplace
  | root hplace =>
      rw [hplace]
      exact .inr hvalid.checksum
  | bitmap hmem =>
      have hnone := List.filterMap_eq_nil_iff.1 hvalid.bitmap _ hmem
      unfold bitmapFinding at hnone
      split at hnone
      · cases hnone
      split at hnone
      · cases hnone
      · next hsum => exact .inr (Bool.eq_true_of_not_eq_false hsum)
  | header hvisits =>
      obtain ⟨rest, stack, state, hreach⟩ := hvisits
      obtain ⟨turn, hlook⟩ := look_of_visits hvalid hreach
      exact .inr (adfLook_eq_ok hlook).2.2.1
  | @dataBlock key hofs hvisits hkind hmem =>
      obtain ⟨rest, stack, state, hreach⟩ := hvisits
      obtain ⟨turn, hlook⟩ := look_of_visits hvalid hreach
      obtain ⟨-, -, -, hturn⟩ := adfLook_eq_ok hlook
      cases hturn with
      | directory hdir => exact absurd (hkind.symm.trans hdir) (by decide)
      | file _ hblocks => exact .inr ((adfFileBlocks_eq_ok hblocks).2.sound hofs _ hmem)
      | other _ hfile => exact absurd hkind hfile

/-- The mark of the format is not covered. -/
lemma Covered.behind_mark (h : Covered limits data variant place)
    (hvalid : AdfValid limits frames data variant) : 3 ≤ place := by
  cases h with
  | boot hplace _ => exact hplace
  | root hplace =>
      rw [Adf.rootKey] at hplace
      omega
  | bitmap hmem =>
      have hnonzero := (List.mem_filter.1 hmem).2
      rw [decide_eq_true_eq] at hnonzero
      omega
  | header hvisits =>
      obtain ⟨rest, stack, state, hreach⟩ := hvisits
      obtain ⟨turn, hlook⟩ := look_of_visits hvalid hreach
      have hinside := (adfLook_eq_ok hlook).2.1.1
      omega
  | @dataBlock key _ hvisits hkind hmem =>
      obtain ⟨rest, stack, state, hreach⟩ := hvisits
      obtain ⟨turn, hlook⟩ := look_of_visits hvalid hreach
      obtain ⟨-, -, -, hturn⟩ := adfLook_eq_ok hlook
      cases hturn with
      | directory hdir => exact absurd (hkind.symm.trans hdir) (by decide)
      | file _ hblocks =>
          have hinside := ((adfFileBlocks_eq_ok hblocks).2.inside _ hmem).1
          omega
      | other _ hfile => exact absurd hkind hfile

lemma Covered.brokenAt (h : Covered limits data variant place)
    (hvalid : AdfValid limits frames data variant) (hdamaged : Damaged place data damaged) :
    BrokenAt (place / 512) data damaged := by
  rcases h.cases hvalid with hplace | hsum
  · exact brokenAt_of_boot hdamaged hplace
  · exact brokenAt_of_checksum hdamaged hvalid.size hsum

/-- The damaged image is not valid. -/
lemma Covered.not_valid (h : Covered limits data variant place)
    (hvalid : AdfValid limits frames data variant) (hdamaged : Damaged place data damaged)
    {variant' : AdfVariant} : ¬AdfValid limits frames damaged variant' := by
  intro hvalid'
  have hbroken := h.brokenAt hvalid hdamaged
  by_cases hboot : place < 1024
  · refine bootChecksum_damaged (hdamaged.take hboot) hboot ?_ hvalid.boot hvalid'.boot
    rw [List.length_take, hvalid.size]
    decide
  have hsum := (h.cases hvalid).resolve_left hboot
  have hsum' := blockChecksum_blockAt hdamaged hvalid.size hsum
  by_cases hroot : place / 512 = Adf.rootKey
  · rw [hroot] at hsum'
    exact absurd hvalid'.checksum (by rw [hsum']; exact Bool.false_ne_true)
  have hsame : Adf.blockAt damaged Adf.rootKey = Adf.blockAt data Adf.rootKey :=
    hbroken.same fun heq => hroot heq.symm
  obtain rfl : variant' = variant := by
    have hdos := hvalid'.dosType
    rw [variantOf_damaged hdamaged (by omega), hvalid.dosType] at hdos
    exact (Option.some.inj hdos).symm
  obtain ⟨final, hdone⟩ := hvalid'.done
  rw [hsame] at hdone
  -- The walk comes to the entry as it does in the image itself, and fails there.
  have hfails : ∀ key rest stack state, Reaches (adfLook limits.maxNodes data variant')
      ⟨[Adf.keys data (Adf.blockAt data Adf.rootKey)], ⟨0, [Adf.rootKey]⟩⟩
      ⟨(key :: rest) :: stack, state⟩ →
      ∃ turn, adfLook limits.maxNodes damaged variant' state key = .ok turn := by
    intro key rest stack state hreach
    by_contra hfail
    push Not at hfail
    exact not_done_of_agree (hbroken.keys _) hbroken.look_broken
      (fun hlook hlook' => hbroken.sameTurns hlook hlook') hreach hfail hdone
  cases h with
  | boot _ hplace => exact hboot hplace
  | root hplace => exact hroot hplace
  | bitmap hmem =>
      have hbitmap := hvalid'.bitmap
      rw [hsame] at hbitmap
      have hnone := List.filterMap_eq_nil_iff.1 hbitmap _ hmem
      unfold bitmapFinding at hnone
      rw [hsum'] at hnone
      split at hnone <;> cases hnone
  | header hvisits =>
      obtain ⟨rest, stack, state, hreach⟩ := hvisits
      obtain ⟨turn, hlook⟩ := hfails _ rest stack state hreach
      exact hbroken.look_broken _ _ hlook
  | @dataBlock key hofs hvisits hkind hmem =>
      obtain ⟨rest, stack, state, hreach⟩ := hvisits
      obtain ⟨turn, hlook⟩ := hfails _ rest stack state hreach
      obtain ⟨-, -, -, hturn⟩ := adfLook_eq_ok hlook
      have hkey := hbroken.same (hbroken.ne_of_look hlook)
      rw [usedBlocks] at hmem
      cases hturn with
      | directory hdir =>
          rw [hkey, hkind] at hdir
          exact absurd hdir (by decide)
      | file _ hblocks =>
          rw [hkey] at hblocks
          exact (hbroken.adfFileBlocks hblocks).2 hofs hmem
      | other _ hfile => exact absurd (hkey ▸ hkind) hfile

/-- What is taken for an ADF image still is. -/
lemma recognised_damaged (h : Damaged place data damaged) (hplace : 3 ≤ place)
    (hformat : recognised data = some .adf) : recognised damaged = some .adf := by
  have hdos : (data.take 65536).take 3 = ascii "DOS" := by
    unfold recognised at hformat
    simp only [] at hformat
    split_ifs at hformat with hdos
    · exact hdos
    all_goals cases hformat
  have hhead : (damaged.take 65536).take 3 = (data.take 65536).take 3 := by
    rw [List.take_take, List.take_take]
    exact h.take_eq hplace
  unfold recognised
  simp only []
  rw [if_pos (hhead.trans hdos)]

/-- What is reported as a valid ADF image has been validated as one, and so is the damaged image. -/
lemma validate_damaged {v : StructuralValidation}
    (h : validate limits frames data = .ok (some v)) (hformat : v.format = .adf)
    (hstate : v.state = .valid) (hdamaged : Damaged place data damaged) (hplace : 3 ≤ place) :
    validate limits frames damaged = some <$> adf limits frames damaged := by
  obtain ⟨hrecognised, hv⟩ := validated_as h hstate
  rw [hformat] at hrecognised
  unfold validate at h ⊢
  rw [hrecognised] at h
  rw [recognised_damaged hdamaged hplace hrecognised]
  simp only [] at h ⊢
  rw [hdamaged.length_eq]
  split at h
  · exact absurd hstate (byteLimit_not_valid h)
  · next hfits => rw [if_neg hfits]

/-- The validator reports the damaged image, and not as valid. -/
def DamageReported (limits : StructuralLimits) (frames : ℕ) (damaged : Bytes) : Prop :=
  ∃ w, validate limits frames damaged = .ok (some w) ∧ w.state ≠ .valid

/-- A covered byte is behind the mark of the format, and damage to it is reported exactly when the
validator returns. -/
lemma damageReported_iff_returns {v : StructuralValidation}
    (h : validate limits frames data = .ok (some v)) (hformat : v.format = .adf)
    (hstate : v.state = .valid) (hvalid : AdfValid limits frames data variant)
    (hcovered : Covered limits data variant place) (hdamaged : Damaged place data damaged) :
    DamageReported limits frames damaged ↔ ∃ w, adf limits frames damaged = .ok w := by
  unfold DamageReported
  rw [validate_damaged h hformat hstate hdamaged (hcovered.behind_mark hvalid)]
  constructor
  · rintro ⟨w, hw, -⟩
    exact ⟨w, map_some_eq_ok.1 hw⟩
  · rintro ⟨w, hw⟩
    refine ⟨w, map_some_eq_ok.2 hw, fun hvalid' => ?_⟩
    obtain ⟨variant, hdamagedValid⟩ := adf_valid_iff.1 ⟨w, hw, hvalid'⟩
    exact hcovered.not_valid hvalid hdamaged hdamagedValid

/-- Damage to a byte that is covered is reported exactly when the walk through the damaged image has
the call frames it needs, which only a changed root block puts in question. -/
theorem damage_reported_iff {v : StructuralValidation}
    (h : validate limits frames data = .ok (some v)) (hformat : v.format = .adf)
    (hstate : v.state = .valid) (hvariant : Adf.variantOf data = some variant)
    (hcovered : Covered limits data variant place) (hdamaged : Damaged place data damaged) :
    DamageReported limits frames damaged ↔
      (place / 512 = Adf.rootKey → AdfShallow limits.maxNodes frames damaged variant) := by
  obtain ⟨-, hv⟩ := validated_as h hstate
  rw [hformat] at hv
  obtain ⟨variant', hvalid⟩ := adf_valid_iff.1 ⟨v, hv, hstate⟩
  obtain rfl : variant' = variant := Option.some.inj (hvalid.dosType.symm.trans hvariant)
  rw [damageReported_iff_returns h hformat hstate hvalid hcovered hdamaged, adf_ok_iff]
  by_cases hroot : place / 512 = Adf.rootKey
  · have hfar : 4 ≤ place := by
      rw [Adf.rootKey] at hroot
      omega
    rw [variantOf_damaged hdamaged hfar, hvariant]
    simp only [Option.some.injEq, forall_eq', hroot, forall_true_left]
  · exact iff_of_true
      (fun variant _ => (hcovered.brokenAt hvalid hdamaged).shallow (Ne.symm hroot) hvalid variant)
      fun heq => absurd heq hroot

end Damage

/-! ### Directories that no pointer leads to -/

section Unreferenced

/-- The directory that a directory holds. -/
def nextDirectory (key : ℕ) : ℕ := if key + 1 = Adf.rootKey then key + 2 else key + 1

/-- The words of a root directory that holds this entry, with the checksum of an empty one. -/
def unreferencedRoot (first : ℕ) : List (ℕ × ℕ) := (6, first) :: Adf.checked [(0, 2), (127, 1)]

def unreferencedHeader (key : ℕ) : List (ℕ × ℕ) :=
  Adf.checked [(0, 2), (6, nextDirectory key), (127, 2)]

/-- An image with a directory in every other block, none of which is in its root directory unless
through the first pointer. -/
def unreferencedImage (first : ℕ) : Bytes :=
  rootedImage (unreferencedRoot first) fun key => Adf.ofWords (unreferencedHeader key)

/-- The last byte of that pointer. -/
def firstPointer : ℕ := Adf.rootKey * 512 + 27

variable {first key : ℕ}

lemma blockAt_unreferenced_directory (hkey : IsBlock key) (hroot : key ≠ Adf.rootKey) :
    Adf.blockAt (unreferencedImage first) key = Adf.ofWords (unreferencedHeader key) :=
  blockAt_rooted_other (fun _ => Adf.length_ofWords _) hkey hroot

lemma blockAt_unreferenced_root : Adf.blockAt (unreferencedImage first) Adf.rootKey =
    Adf.ofWords (unreferencedRoot first) := blockAt_rooted_root fun _ => Adf.length_ofWords _

lemma unreferenced_variant : Adf.variantOf (unreferencedImage first) = some .ffs :=
  rooted_variant fun _ => Adf.length_ofWords _

/-- The pointer is the only difference. -/
lemma damaged_unreferenced :
    Damaged firstPointer (unreferencedImage 0) (unreferencedImage 3) := by
  have hpointer : Damaged 27 (Adf.ofWords (unreferencedRoot 0))
      (Adf.ofWords (unreferencedRoot 3)) := by
    refine @Damaged.flatMap_range 3 _ _ 4 128 6 (fun _ => rfl) (by decide) (fun i hi => ?_)
      ⟨[0, 0, 0], 0, 3, [], rfl, rfl, rfl, by decide⟩
    have hlookup : ∀ first, Adf.wordAt (unreferencedRoot first) i =
        Adf.wordAt (Adf.checked [(0, 2), (127, 1)]) i := by
      intro first
      rw [Adf.wordAt, unreferencedRoot, List.lookup_cons, beq_false_of_ne hi]
      rfl
    rw [hlookup, hlookup]
  rw [unreferencedImage, unreferencedImage, rootedImage, rootedImage]
  refine @Damaged.flatMap_range 27 _ _ 512 Adf.blocks Adf.rootKey
    (length_rootedBlock fun _ => Adf.length_ofWords _) (by decide) (fun key hkey => ?_) ?_
  · rw [rootedBlock, rootedBlock, if_neg hkey, if_neg hkey]
  · exact hpointer

lemma unreferenced_rootKeys {data : Bytes} (hfirst : first < 2 ^ 32) :
    Adf.keys data (Adf.ofWords (unreferencedRoot first)) =
      Adf.chainKeys data Adf.blocks first := by
  rw [keys_ofWords fun i hi => ?_]
  · rw [show Adf.wordAt (unreferencedRoot first) 6 = first from rfl, Nat.mod_eq_of_lt hfirst]
  · have hword : Adf.wordAt (unreferencedRoot first) (7 + i) =
        Adf.wordAt (unreferencedRoot 0) (7 + i) := by
      rw [Adf.wordAt, Adf.wordAt, unreferencedRoot, unreferencedRoot, List.lookup_cons,
        List.lookup_cons, beq_false_of_ne (show 7 + i ≠ 6 by omega)]
    have hempty : ∀ i < 71, Adf.wordAt (unreferencedRoot 0) (7 + i) % 2 ^ 32 = 0 := by
      decide +kernel
    rw [hword, hempty i hi]

lemma unreferenced_empty : EmptyRoot (unreferencedRoot 0) where
  type := rfl
  kind := rfl
  checksum := Adf.blockChecksum_ofWords _ (by decide +kernel)
  table := by decide +kernel
  bitmap := by decide +kernel

/-- With an empty root directory the image is valid. -/
lemma unreferenced_valid : AdfValid .default 1000 (unreferencedImage 0) .ffs :=
  rooted_valid (fun _ => Adf.length_ofWords _) unreferenced_empty

/-- A directory that is `left` steps away from the last one that still fits, and none of those after
it has been seen. -/
structure Opens (left : ℕ) (state : AdfState) (key : ℕ) : Prop where
  inside : 2 ≤ key
  room : key < Adf.rootKey ∧ key + left ≤ 1003 ∨ Adf.rootKey < key ∧ key + left ≤ 1004
  counted : state.nodes + left ≤ 1000
  fresh : ∀ other ∈ state.seen, other < key ∨ other = Adf.rootKey

lemma isBlock_nextDirectory (hkey : IsBlock key) (hroom : key ≤ 1010) :
    IsBlock (nextDirectory key) ∧ nextDirectory key ≠ Adf.rootKey := by
  have hinside := hkey.1
  unfold IsBlock nextDirectory Adf.blocks
  rw [Adf.rootKey]
  split_ifs <;> omega

/-- The chain of a directory ends with it. -/
lemma unreferenced_chain (hkey : IsBlock key) (hroot : key ≠ Adf.rootKey) :
    Adf.chainKeys (unreferencedImage first) Adf.blocks key = [key] := by
  have hlast : be32 (Adf.blockAt (unreferencedImage first) key) 496 = 0 := by
    rw [blockAt_unreferenced_directory hkey hroot]
    exact Adf.be32_of_word (show Adf.wordAt (unreferencedHeader key) 124 = 0 from rfl) (by decide)
      (by decide) (by decide)
  have hinside := hkey.1
  have hstays : ¬(key < 2 ∨ key ≥ 1760) := by
    rw [not_or, Nat.not_lt, Nat.not_le]
    exact hkey
  rw [Adf.chainKeys.eq_def]
  simp only []
  rw [if_neg (by omega), Adf.blocks]
  simp only []
  rw [if_neg hstays, hlast, Adf.chainKeys_zero]

/-- A directory holds the next one. -/
lemma unreferenced_keys (hkey : IsBlock key) (hroom : key ≤ 1010) :
    Adf.keys (unreferencedImage first) (Adf.ofWords (unreferencedHeader key)) =
      [nextDirectory key] := by
  obtain ⟨hnext, hroot⟩ := isBlock_nextDirectory hkey hroom
  have hempty : ∀ i < 71, Adf.wordAt (unreferencedHeader key) (7 + i) % 2 ^ 32 = 0 := by
    intro i hi
    simp only [Adf.wordAt, unreferencedHeader, Adf.checked, List.lookup_cons, List.lookup_nil,
      beq_false_of_ne (show 7 + i ≠ 5 by omega), beq_false_of_ne (show 7 + i ≠ 0 by omega),
      beq_false_of_ne (show 7 + i ≠ 6 by omega), beq_false_of_ne (show 7 + i ≠ 127 by omega)]
    rfl
  have hword : Adf.wordAt (unreferencedHeader key) 6 % 2 ^ 32 = nextDirectory key := by
    have hlimit := hnext.2
    rw [Adf.blocks] at hlimit
    rw [show Adf.wordAt (unreferencedHeader key) 6 = nextDirectory key from rfl,
      Nat.mod_eq_of_lt (by omega)]
  rw [keys_ofWords hempty, hword, unreferenced_chain hnext hroot]

lemma opens_nextDirectory {left : ℕ} {state : AdfState} (h : Opens (left + 1) state key) :
    ∃ state' inner, adfLook StructuralLimits.default.maxNodes (unreferencedImage 3) .ffs state key =
      .ok (.enter state' [inner]) ∧ Opens left state' inner := by
  obtain ⟨hlow, hroom, hcounted, hfresh⟩ := h
  have hroot : key ≠ Adf.rootKey := by omega
  have hkey : IsBlock key := ⟨hlow, by rw [Adf.blocks]; omega⟩
  have hblock : Adf.block (unreferencedImage 3) key =
      .ok (Adf.ofWords (unreferencedHeader key)) := by
    rw [block_eq_ok, blockAt_unreferenced_directory hkey hroot, not_or, Nat.not_lt, Nat.not_le]
    exact ⟨hkey, rfl⟩
  have htype : be32 (Adf.ofWords (unreferencedHeader key)) 0 = 2 :=
    Adf.be32_of_word (show Adf.wordAt (unreferencedHeader key) 0 = 2 from rfl) (by decide)
      (by decide) (by decide)
  have hkind : Adf.signedBe32 (Adf.ofWords (unreferencedHeader key)) 508 = 2 := by
    have hword : be32 (Adf.ofWords (unreferencedHeader key)) 508 = 2 :=
      Adf.be32_of_word (show Adf.wordAt (unreferencedHeader key) 127 = 2 from rfl) (by decide)
        (by decide) (by decide)
    simp only [Adf.signedBe32, hword]
    decide
  have hsum : Adf.blockChecksum (Adf.ofWords (unreferencedHeader key)) = true := by
    refine Adf.blockChecksum_checked ?_ ?_
    · simp only [List.map_cons, List.map_nil]
      decide
    · simp
  have hkeys := @unreferenced_keys 3 key hkey (by omega)
  have hnew : key ∉ state.seen := fun hmem => by
    rcases hfresh key hmem with hlt | heq
    · exact Nat.lt_irrefl _ hlt
    · exact hroot heq
  refine ⟨⟨state.nodes + 1, key :: state.seen⟩, nextDirectory key, ?_, ?_⟩
  · have hnodes : state.nodes < StructuralLimits.default.maxNodes := by
      rw [show StructuralLimits.default.maxNodes = 100000 from rfl]
      omega
    rw [adfLook_directory hnodes hnew hblock htype hsum hkind, hkeys]
  · have hnext := isBlock_nextDirectory hkey (show key ≤ 1010 by omega)
    refine ⟨hnext.1.1, ?_, show state.nodes + 1 + left ≤ 1000 by omega, ?_⟩
    · unfold nextDirectory
      rw [Adf.rootKey] at hroom ⊢
      split_ifs <;> omega
    · have hstep : key < nextDirectory key := by
        unfold nextDirectory
        split_ifs <;> omega
      refine List.forall_mem_cons.2 ⟨.inl hstep, fun other hother => ?_⟩
      exact (hfresh other hother).imp_left fun hlt => hlt.trans hstep

/-- The walk through the damaged image goes through a thousand directories, each in the other. -/
lemma not_shallow_unreferenced :
    ¬AdfShallow StructuralLimits.default.maxNodes 1000 (unreferencedImage 3) .ffs := by
  have hkeys : Adf.keys (unreferencedImage 3)
      (Adf.blockAt (unreferencedImage 3) Adf.rootKey) = [3] := by
    rw [blockAt_unreferenced_root, unreferenced_rootKeys (by decide),
      unreferenced_chain ⟨by decide, by decide⟩ (by decide)]
  have hdeep := @walk_eq_deep_iff AdfState ℕ Exc Exc.tooDeep
    (adfLook StructuralLimits.default.maxNodes (unreferencedImage 3) .ffs)
    (fun state key h => by cases raises_adfLook _ h) 1000 ⟨0, [Adf.rootKey]⟩ [3]
  rw [AdfShallow, hkeys, ← hdeep]
  refine walk_eq_deep_of_enters _ _ opens_nextDirectory ⟨by decide, .inl ⟨by decide, by decide⟩,
    Nat.le_refl _, fun other hother => .inr (List.mem_singleton.1 hother)⟩

lemma unreferenced_reported : ∃ v, validate .default 1000 (unreferencedImage 0) = .ok (some v) ∧
    v.format = .adf ∧ v.state = .valid :=
  rooted_reported (fun _ => Adf.length_ofWords _) unreferenced_empty

/-- A pointer of the root block that becomes 3 leads to a thousand directories, each in the other,
so the validator does not return. -/
theorem damaged_root_raises : (∃ v, validate .default 1000 (unreferencedImage 0) = .ok (some v) ∧
      v.format = .adf ∧ v.state = .valid) ∧
    Covered .default (unreferencedImage 0) .ffs firstPointer ∧
    Damaged firstPointer (unreferencedImage 0) (unreferencedImage 3) ∧
    ¬DamageReported .default 1000 (unreferencedImage 3) := by
  obtain ⟨v, hv, hformat, hstate⟩ := unreferenced_reported
  have hcovered : Covered .default (unreferencedImage 0) .ffs firstPointer := .root (by decide)
  refine ⟨⟨v, hv, hformat, hstate⟩, hcovered, damaged_unreferenced, ?_⟩
  rw [damageReported_iff_returns hv hformat hstate unreferenced_valid hcovered
    damaged_unreferenced, adf_ok_iff]
  exact fun hshallow => not_shallow_unreferenced (hshallow _ unreferenced_variant)

/-- Damage to the boot block of the image is reported. -/
theorem damaged_boot_reported :
    DamageReported .default 1000 ((unreferencedImage 0).set 100 1) := by
  obtain ⟨v, hv, hformat, hstate⟩ := unreferenced_reported
  have hbyte : (unreferencedImage 0).getD 100 0 = 0 := by
    have hget : ∀ data : Bytes, data.getD 100 0 = (Adf.blockAt data 0).getD 100 0 := fun data => by
      simp only [Adf.blockAt, slice, Nat.zero_mul, List.drop_zero, Nat.sub_zero,
        List.getD_eq_getElem?_getD, List.getElem?_take_of_lt (show 100 < (0 + 1) * 512 by decide)]
    rw [hget, unreferencedImage, blockAt_rootedImage (fun _ => Adf.length_ofWords _) (by decide),
      rootedBlock, if_pos rfl]
    decide +kernel
  have hdamaged : Damaged 100 (unreferencedImage 0) ((unreferencedImage 0).set 100 1) :=
    .set (by rw [unreferenced_valid.size]; decide) (by rw [hbyte]; decide)
  exact (damage_reported_iff hv hformat hstate unreferenced_variant (.boot (by decide) (by decide))
    hdamaged).2 fun hroot => absurd hroot (by decide)

end Unreferenced

end StructuralValidator

end AVBox
