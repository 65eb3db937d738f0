import AVBox.Analyzers.StructuralClean
import AVBox.Analyzers.StructuralTotal

/-!
# The node limit of the structural validator

`max_nodes` cuts the ADF walk and the ISO 9660 loop off with a finding, and a chain of clusters as
well.  Two loops it cuts off without one: that over the rows of a FAT directory and that over the
members of an LHA archive.  So a larger limit keeps what is valid if what the smaller one leaves out
there has nothing to find (`limit_keeps_valid`).
-/

namespace AVBox

namespace StructuralValidator

open Binary Fallible Walk

/-! ## ADF -/

section Adf

variable {data : Bytes} {variant : AdfVariant} {n m : ℕ}

lemma adfLook_mono (hle : n ≤ m) {state : AdfState} {key : ℕ} {turn : Turn AdfState ℕ}
    (h : adfLook n data variant state key = .ok turn) :
    adfLook m data variant state key = .ok turn := by
  unfold adfLook at h ⊢
  split at h
  · cases h
  · next hnodes =>
      rw [if_neg (by omega)]
      exact h

lemma walkAdf_mono (hle : n ≤ m) {frames : ℕ} (h : walkAdf n data variant frames = .ok ()) :
    walkAdf m data variant frames = .ok () := by
  rw [walkAdf_eq] at h ⊢
  obtain ⟨final, hwalk, -⟩ := bind_eq_ok.1 h
  exact bind_eq_ok.2 ⟨final,
    walk_eq_ok_iff.2 ((walk_eq_ok_iff.1 hwalk).mono (adfLook_mono hle)), rfl⟩

end Adf

/-! ## ISO 9660 -/

section Iso

variable {data : Bytes} {n m : ℕ}

/-- The limit has not been reached when the loop reports nothing. -/
lemma isoDirectories_mono (hle : n ≤ m) {blockSize : ℕ} {root : Bytes}
    (h : isoDirectories data blockSize n root = .ok []) :
    isoDirectories data blockSize m root = .ok [] := by
  obtain ⟨final, hrun, h⟩ := bind_eq_ok.1 h
  split at h
  · have hnone := Except.ok.inj h
    simp at hnone
  next hstopped =>
  obtain ⟨hpending, hnodes⟩ := not_or.1 hstopped
  rw [not_not] at hpending
  refine bind_eq_ok.2 ⟨final, Loop.run_mono ?_ hrun ?_, ?_⟩
  · intro s hgoes
    simp only [isoGoesOn, decide_eq_true_eq] at hgoes ⊢
    exact ⟨hgoes.1, by omega⟩
  · simp [isoGoesOn, hpending]
  · rw [if_neg (by rw [hpending]; simp; omega)]
    exact h

end Iso

/-! ## FAT -/

section Fat

variable {data : Bytes} {vol : Fat.Volume} {n m : ℕ}

/-- A chain without a finding is not cut off by the limit. -/
lemma fatChainFrom_mono (hle : n ≤ m) {owner : PyStr} {remaining : ℕ} {seen : List ℕ} {out : Bytes}
    {current : ℕ} {state : FatState}
    (hclean : (fatChainFrom n data vol owner remaining seen out current state).2.findings = []) :
    fatChainFrom m data vol owner remaining seen out current state =
      fatChainFrom n data vol owner remaining seen out current state := by
  induction remaining generalizing seen out current state with
  | zero => exact absurd hclean report_ne_nil
  | succ remaining ih =>
      by_cases hstart : current < 2
      · rw [fatChainFrom, fatChainFrom, if_pos hstart, if_pos hstart]
      have hpasses := passes_of_clean hclean (by omega)
      rw [fatChainFrom_passes hpasses, fatChainFrom_passes hpasses]
      rcases clean_cases hclean (by omega) with heof | ⟨heof, hreference, hlimit, hrest⟩
      · rw [if_pos heof, if_pos heof]
      · rw [if_neg heof, if_neg heof, if_neg hreference, if_neg hreference, if_neg hlimit,
          if_neg (by omega)]
        exact ih hrest

lemma fatChain_mono (hle : n ≤ m) {start : ℕ} {owner : PyStr} {wanted : Option ℕ}
    {state state' : FatState} {content : Bytes}
    (h : fatChain n data vol start owner wanted state = (content, state'))
    (hclean : state'.findings = []) :
    fatChain m data vol start owner wanted state = (content, state') := by
  have hfound : (fatChain n data vol start owner wanted state).2.findings = [] := by
    rw [h]
    exact hclean
  have hsame := fatChainFrom_mono hle (clean_of_fatChain hfound)
  rw [← h, fatChain, fatChain, hsame]

/-- An empty file without clusters. -/
lemma fatChain_none {start : ℕ} {owner : PyStr} {state : FatState} (hstart : start < 2) :
    fatChain n data vol start owner (some 0) state = ([], state) := by
  have hnone : fatChainFrom n data vol owner (vol.clusters + 1) [] [] start state =
      ([], state) := by
    rw [fatChainFrom, if_pos hstart]
  unfold fatChain
  rw [hnone]
  rfl

/-- A row at which the validator has nothing to find. -/
def FatItem.Idle (item : FatItem) : Prop :=
  item.name ∈ PyStr.dots ∨ item.isDirectory = false ∧ item.start < 2 ∧ item.size = 0

lemma fatLook_idle {state : FatState} {item : FatItem} (h : item.Idle) :
    fatLook n data vol state item = .ok (.stay state) := by
  by_cases hdots : item.name ∈ PyStr.dots
  · exact fatLook_dots hdots
  · obtain ⟨hfile, hstart, hsize⟩ := h.resolve_left hdots
    have hchain : fatChain n data vol item.start item.owner (some item.size) state =
        ([], state) := by
      rw [hsize]
      exact fatChain_none hstart
    exact fatLook_file hdots hfile hchain

/-- What lies between the limits in the directories that the validator examines is idle. -/
def RowsIdle (n m : ℕ) (data : Bytes) (vol : Fat.Volume) : Prop :=
  ∀ directory, ExaminedDirectory data vol directory →
    ∀ content, Fat.directoryContent data vol directory = .ok content →
      ∀ raw ∈ ((marked content).take m).drop n,
        fatSkipped raw = true ∨ (⟨raw, []⟩ : FatItem).Idle

/-- The larger limit adds rows to a directory that are idle. -/
lemma fatRows_append (hle : n ≤ m) (hidle : RowsIdle n m data vol) {directory : Option ℕ}
    (hexamined : ExaminedDirectory data vol directory) {content : Bytes}
    (hcontent : Fat.directoryContent data vol directory = .ok content) (head : PyStr) :
    ∃ extra, fatRows m head content = fatRows n head content ++ extra ∧
      ∀ item ∈ extra, FatItem.Idle item := by
  refine ⟨((((marked content).take m).drop n).filter fun raw => !fatSkipped raw).map
    fun raw => ⟨raw, head⟩, ?_, ?_⟩
  · rw [fatRows_eq, fatRows_eq, ← List.map_append, ← List.filter_append]
    have hsplit := List.take_append_drop n ((marked content).take m)
    rw [List.take_take, Nat.min_eq_left hle] at hsplit
    rw [hsplit]
  · intro item hitem
    obtain ⟨raw, hraw, rfl⟩ := List.mem_map.1 hitem
    obtain ⟨hmem, hlive⟩ := List.mem_filter.1 hraw
    rcases hidle _ hexamined _ hcontent raw hmem with hskipped | hrow
    · rw [hskipped] at hlive
      cases hlive
    · exact hrow

/-- The item is a row of a directory that the validator examines. -/
def Placed (data : Bytes) (vol : Fat.Volume) (item : FatItem) : Prop :=
  ∃ directory, ExaminedDirectory data vol directory ∧
    ∃ row ∈ Fat.rowsOf data vol directory, row.raw = item.raw

lemma placed_fatRows {directory : Option ℕ} (hexamined : ExaminedDirectory data vol directory)
    {content : Bytes} (hcontent : Fat.directoryContent data vol directory = .ok content)
    (head : PyStr) : ∀ item ∈ fatRows n head content, Placed data vol item := by
  intro item hitem
  obtain ⟨hmem, hlive, -⟩ := mem_fatRows.1 hitem
  refine ⟨directory, hexamined, ?_⟩
  rw [Fat.rowsOf, hcontent]
  exact mem_listing_raw.2 ⟨List.mem_of_mem_take hmem, hlive⟩

lemma Placed.sub {item : FatItem} (h : Placed data vol item) (hdots : item.name ∉ PyStr.dots)
    (hdir : item.isDirectory = true) : ExaminedDirectory data vol (some item.start) := by
  obtain ⟨directory, hexamined, row, hrow, hraw⟩ := h
  obtain ⟨raw, head⟩ := item
  obtain rfl : row.raw = raw := hraw
  exact .sub hexamined hrow hdir hdots

lemma done_idle {frames : ℕ} {state : FatState} {extra : List FatItem}
    (hextra : ∀ item ∈ extra, FatItem.Idle item) :
    Done (fatLook m data vol) (frames + 1) state extra state := by
  induction extra with
  | nil => exact .nil
  | cons item rest ih =>
      obtain ⟨hitem, hrest⟩ := List.forall_mem_cons.1 hextra
      exact .stay (fatLook_idle hitem) (ih hrest)

/-- A walk without findings goes the same way with the larger limit. -/
lemma done_mono (hle : n ≤ m) (hfits : DataFits data vol) (hidle : RowsIdle n m data vol)
    {frames : ℕ} {state final : FatState} {items : List FatItem}
    (h : Done (fatLook n data vol) frames state items final) (hclean : final.findings = [])
    (hitems : ∀ item ∈ items, Placed data vol item) {extra : List FatItem}
    (hextra : ∀ item ∈ extra, FatItem.Idle item) :
    Done (fatLook m data vol) frames state (items ++ extra) final := by
  induction h generalizing extra with
  | nil => exact done_idle hextra
  | @stay frames state state' final item rest hlook hdone ih =>
      have hstay : state'.findings = [] := List.prefix_nil.1 (hclean ▸ done_findings hdone)
      refine .stay ?_ (ih hclean (fun i hi => hitems i (List.mem_cons_of_mem _ hi)) hextra)
      cases examined_of_look hlook with
      | dots hdots => exact fatLook_dots hdots
      | again _ _ _ => exact absurd hstay report_ne_nil
      | file hdots hfile hchain => exact fatLook_file hdots hfile (fatChain_mono hle hchain hstay)
  | @enter frames state state' inside final item inner rest hlook hinner hrest ihinner ihrest =>
      have hinside : inside.findings = [] := List.prefix_nil.1 (hclean ▸ done_findings hrest)
      have henter : state'.findings = [] := List.prefix_nil.1 (hinside ▸ done_findings hinner)
      have hplaced := hitems item List.mem_cons_self
      cases examined_of_look hlook with
      | @directory content _ hdots hdir hfresh hchain =>
          have hexamined := hplaced.sub hdots hdir
          have hread := chain_of_clean hfits (by rw [hchain]; exact henter)
          rw [hchain] at hread
          obtain ⟨more, hrows, hmore⟩ := fatRows_append hle hidle hexamined hread item.owner
          have hlook' := fatLook_directory hdots hdir hfresh (fatChain_mono hle hchain henter)
          rw [hrows] at hlook'
          refine .enter hlook' (ihinner hinside ?_ hmore)
            (ihrest hclean (fun i hi => hitems i (List.mem_cons_of_mem _ hi)) hextra)
          exact placed_fatRows hexamined hread item.owner

/-- A valid volume stays valid, if the rows between the limits are idle. -/
lemma fatValid_mono (hle : n ≤ m) {maxBytes frames : ℕ} {final : FatState}
    (hidle : RowsIdle n m data (Fat.Volume.ofBoot data))
    (h : FatValid ⟨maxBytes, n⟩ frames data final) : FatValid ⟨maxBytes, m⟩ frames data final := by
  have hfits := dataFits_of_bpbValid h.bpb
  obtain ⟨root, state, hroot, hfatRoot, hclean, hdone⟩ := h.root
  refine ⟨h.bpb, h.copies, ?_, h.clean, h.orphans⟩
  have hsame : fatRoot m data (Fat.Volume.ofBoot data) = (root, state) := by
    rw [← hfatRoot]
    unfold fatRoot at hfatRoot ⊢
    simp only [] at hfatRoot ⊢
    split at hfatRoot
    · next h32 =>
        rw [if_pos h32, if_pos h32, hfatRoot]
        exact fatChain_mono hle hfatRoot hclean
    · next h32 => rw [if_neg h32, if_neg h32]
  obtain ⟨extra, hrows, hextra⟩ := fatRows_append hle hidle .root
    (show Fat.directoryContent data (Fat.Volume.ofBoot data) none = .ok root from hroot) []
  show walk _ _ _ (fatRoot m data _).2 (fatRows m [] (fatRoot m data _).1) = _
  rw [hsame, hrows]
  exact walk_eq_ok_iff.2 (done_mono hle hfits hidle hdone h.clean
    (placed_fatRows .root hroot []) hextra)

end Fat

/-! ## LHA -/

section Lha

variable {data : Bytes}

/-- A member header starts at the place. -/
def MemberAt (data : Bytes) (pos : ℕ) : Prop := pos < data.length ∧ u8 data pos ≠ 0

instance (pos : ℕ) : Decidable (MemberAt data pos) := by
  unfold MemberAt
  infer_instance

/-- Nothing is reported of the member at a place. -/
def SoundMember (data : Bytes) (pos : ℕ) : Prop :=
  (lhaMember data ⟨pos, false, 0, [], []⟩).findings = []

instance (pos : ℕ) : Decidable (SoundMember data pos) := by
  unfold SoundMember
  infer_instance

/-- The place behind the member at a place. -/
def behindMember (data : Bytes) (pos : ℕ) : ℕ := (lhaMember data ⟨pos, false, 0, [], []⟩).pos

/-- Nothing is reported of the next `count` members, as far as there are so many. -/
def MembersSound (data : Bytes) : ℕ → ℕ → Prop
  | 0, _ => True
  | count + 1, pos => MemberAt data pos →
      SoundMember data pos ∧ MembersSound data count (behindMember data pos)

/-- The place behind the next `count` members. -/
def behindMembers (data : Bytes) : ℕ → ℕ → ℕ
  | 0, pos => pos
  | count + 1, pos =>
      if MemberAt data pos then behindMembers data count (behindMember data pos) else pos

lemma membersSound_of_end {pos : ℕ} (h : ¬MemberAt data pos) (count : ℕ) :
    MembersSound data count pos := by
  cases count with
  | zero => trivial
  | succ count => exact fun hat => absurd hat h

/-- The members behind the first ones are judged on their own. -/
theorem membersSound_add (first more pos : ℕ) :
    MembersSound data (first + more) pos ↔
      MembersSound data first pos ∧ MembersSound data more (behindMembers data first pos) := by
  induction first generalizing pos with
  | zero =>
      rw [Nat.zero_add]
      exact ⟨fun h => ⟨trivial, h⟩, fun h => h.2⟩
  | succ first ih =>
      rw [Nat.succ_add_eq_add_succ, Nat.add_succ]
      by_cases hat : MemberAt data pos
      · rw [behindMembers, if_pos hat]
        constructor
        · intro h
          obtain ⟨hsound, hrest⟩ := h hat
          obtain ⟨hfirst, hmore⟩ := (ih _).1 hrest
          exact ⟨fun _ => ⟨hsound, hfirst⟩, hmore⟩
        · rintro ⟨hfirst, hmore⟩ _
          obtain ⟨hsound, hrest⟩ := hfirst hat
          exact ⟨hsound, (ih _).2 ⟨hrest, hmore⟩⟩
      · rw [behindMembers, if_neg hat]
        exact iff_of_true (membersSound_of_end hat _)
          ⟨membersSound_of_end hat _, membersSound_of_end hat _⟩

/-- What a pass adds to the findings, whether it stops the loop, and how many members it counts. -/
structure LhaPass where
  findings : List String
  stops : Bool
  members : ℕ
  pos : ℕ

/-- The pass leads from one state to another. -/
structure LhaPass.Leads (pass : LhaPass) (state state' : LhaState) : Prop where
  findings : state'.findings = state.findings ++ pass.findings
  stopped : state'.stopped = (state.stopped || pass.stops)
  members : state'.members = state.members + pass.members
  pos : state'.pos = pass.pos

/-- What a pass does depends on the place alone, and without a finding it goes over a member. -/
lemma lhaMember_pass (data : Bytes) (pos : ℕ) :
    ∃ pass : LhaPass, (∀ state : LhaState, state.pos = pos →
        pass.Leads state (lhaMember data state)) ∧
      (pass.findings = [] → pass.stops = false ∧ pass.members = 1) := by
  by_cases htail : pos + 22 > data.length
  · refine ⟨⟨["LHA_ARCHIVE_TRUNCATED"], true, 0, pos⟩, ?_, fun h => absurd h (List.cons_ne_nil _ _)⟩
    rintro state rfl
    rw [lhaMember, if_pos htail]
    exact ⟨rfl, (Bool.or_true _).symm, rfl, rfl⟩
  by_cases hheader : u8 data pos < 22 ∨ pos + u8 data pos + 2 > data.length
  · refine ⟨⟨["LHA_HEADER_MALFORMED"], true, 0, pos⟩, ?_, fun h => absurd h (List.cons_ne_nil _ _)⟩
    rintro state rfl
    rw [lhaMember, if_neg htail, if_pos hheader]
    exact ⟨rfl, (Bool.or_true _).symm, rfl, rfl⟩
  generalize hslice : slice data pos (pos + u8 data pos + 2) = header
  by_cases hmethod : PyStr.decodeAscii (slice header 2 7) ≠ PyStr.ofString "-lh0-"
  · refine ⟨⟨["LHA_METHOD_UNSUPPORTED"], true, 0, pos⟩, ?_,
      fun h => absurd h (List.cons_ne_nil _ _)⟩
    rintro state rfl
    rw [lhaMember, if_neg htail, if_neg hheader]
    simp only [hslice]
    rw [if_pos hmethod]
    exact ⟨rfl, (Bool.or_true _).symm, rfl, rfl⟩
  generalize hsum : ((slice header 2 (2 + u8 data pos)).map UInt8.toNat).sum % 256 = sum
  by_cases hcrc : 22 + u8 header 21 + 2 > header.length
  · refine ⟨⟨(if sum ≠ u8 header 1 then ["LHA_HEADER_CHECKSUM_MISMATCH"] else []) ++
      ["LHA_HEADER_MALFORMED"], true, 0, pos⟩, ?_, fun h => by simp at h⟩
    rintro state rfl
    rw [lhaMember, if_neg htail, if_neg hheader]
    simp only [hslice, hsum]
    rw [if_neg hmethod, if_pos hcrc]
    by_cases hsame : sum = u8 header 1
    · simp only [hsame, ne_eq, not_true_eq_false, if_false]
      exact ⟨rfl, (Bool.or_true _).symm, rfl, rfl⟩
    · simp only [hsame, ne_eq, not_false_eq_true, if_true]
      exact ⟨List.append_assoc _ _ _, (Bool.or_true _).symm, rfl, rfl⟩
  generalize hstop : pos + u8 data pos + 2 = stop
  by_cases hpacked : stop + le32 header 7 > data.length
  · refine ⟨⟨(if sum ≠ u8 header 1 then ["LHA_HEADER_CHECKSUM_MISMATCH"] else []) ++
      ["LHA_ARCHIVE_TRUNCATED"], true, 0, pos⟩, ?_, fun h => by simp at h⟩
    rintro state rfl
    rw [lhaMember, if_neg htail, if_neg hheader]
    simp only [hslice, hsum]
    simp only [hstop]
    rw [if_neg hmethod, if_neg hcrc, if_pos hpacked]
    by_cases hsame : sum = u8 header 1
    · simp only [hsame, ne_eq, not_true_eq_false, if_false]
      exact ⟨rfl, (Bool.or_true _).symm, rfl, rfl⟩
    · simp only [hsame, ne_eq, not_false_eq_true, if_true]
      exact ⟨List.append_assoc _ _ _, (Bool.or_true _).symm, rfl, rfl⟩
  generalize hdata : crc16 (slice data stop (stop + le32 header 7)) = crc
  refine ⟨⟨(if sum ≠ u8 header 1 then ["LHA_HEADER_CHECKSUM_MISMATCH"] else []) ++
    if crc ≠ le16 header (22 + u8 header 21) then ["LHA_MEMBER_CRC_MISMATCH"] else [], false, 1,
    stop + le32 header 7⟩, ?_, fun _ => ⟨rfl, rfl⟩⟩
  rintro state rfl
  rw [lhaMember, if_neg htail, if_neg hheader]
  simp only [hslice, hsum]
  simp only [hstop, hdata]
  rw [if_neg hmethod, if_neg hcrc, if_neg hpacked]
  by_cases hsame : sum = u8 header 1 <;>
    by_cases hcrc16 : crc = le16 header (22 + u8 header 21) <;>
    simp only [hsame, hcrc16, ne_eq, not_true_eq_false, not_false_eq_true, if_true, if_false]
  · exact ⟨(List.append_nil _).symm, (Bool.or_false _).symm, rfl, rfl⟩
  · exact ⟨rfl, (Bool.or_false _).symm, rfl, rfl⟩
  · exact ⟨rfl, (Bool.or_false _).symm, rfl, rfl⟩
  · exact ⟨List.append_assoc _ _ _, (Bool.or_false _).symm, rfl, rfl⟩

lemma lhaMember_keeps (state : LhaState) : state.findings <+: (lhaMember data state).findings := by
  obtain ⟨pass, hleads, -⟩ := lhaMember_pass data state.pos
  rw [(hleads state rfl).findings]
  exact List.prefix_append _ _

/-- What a pass does in terms of the member at its place. -/
lemma lhaMember_cases {state : LhaState} (hstop : state.stopped = false)
    (hclean : state.findings = []) :
    SoundMember data state.pos ∧ (lhaMember data state).findings = [] ∧
        (lhaMember data state).stopped = false ∧
        (lhaMember data state).members = state.members + 1 ∧
        (lhaMember data state).pos = behindMember data state.pos ∨
      ¬SoundMember data state.pos ∧ (lhaMember data state).findings ≠ [] := by
  obtain ⟨pass, hleads, hsound⟩ := lhaMember_pass data state.pos
  have hhere := hleads state rfl
  have hfresh := hleads ⟨state.pos, false, 0, [], []⟩ rfl
  have hiff : SoundMember data state.pos ↔ pass.findings = [] := by
    rw [SoundMember, hfresh.findings, List.nil_append]
  by_cases hpass : pass.findings = []
  · obtain ⟨hgoes, hone⟩ := hsound hpass
    refine .inl ⟨hiff.2 hpass, ?_, ?_, ?_, hhere.pos.trans hfresh.pos.symm⟩
    · rw [hhere.findings, hclean, hpass, List.nil_append]
    · rw [hhere.stopped, hstop, hgoes]
      rfl
    · rw [hhere.members, hone]
  · refine .inr ⟨fun h => hpass (hiff.1 h), ?_⟩
    rw [hhere.findings, hclean, List.nil_append]
    exact hpass

section Run

variable {n fuel : ℕ} {state final : LhaState}

/-- The loop over the members. -/
abbrev lhaRun (data : Bytes) (n fuel : ℕ) (state : LhaState) : Except Exc LhaState :=
  Loop.run Exc.unending (lhaGoesOn n data) (fun state => .ok (lhaMember data state)) fuel state

lemma lhaRun_cases (hrun : lhaRun data n fuel state = .ok final) :
    lhaGoesOn n data state = false ∧ final = state ∨
      lhaGoesOn n data state = true ∧
        ∃ rest, fuel = rest + 1 ∧ lhaRun data n rest (lhaMember data state) = .ok final := by
  cases hgoes : lhaGoesOn n data state with
  | false => exact .inl ⟨rfl, (Except.ok.inj ((Loop.run_of_stopped hgoes _).symm.trans hrun)).symm⟩
  | true =>
      cases fuel with
      | zero =>
          rw [lhaRun, Loop.run, if_neg (by simp [hgoes])] at hrun
          cases hrun
      | succ rest =>
          have hpass : lhaRun data n (rest + 1) state = lhaRun data n rest (lhaMember data state) :=
            @Loop.run_of_pass _ _ _ _ (fun state => .ok (lhaMember data state)) _ _ hgoes rfl rest
          exact .inr ⟨rfl, rest, rfl, hpass.symm.trans hrun⟩

lemma lhaRun_keeps (hrun : lhaRun data n fuel state = .ok final) :
    state.findings <+: final.findings := by
  induction fuel generalizing state with
  | zero =>
      rcases lhaRun_cases hrun with ⟨-, rfl⟩ | ⟨-, rest, hrest, -⟩
      · exact List.prefix_rfl
      · omega
  | succ fuel ih =>
      rcases lhaRun_cases hrun with ⟨-, rfl⟩ | ⟨-, rest, hrest, hpass⟩
      · exact List.prefix_rfl
      · obtain rfl := Nat.succ.inj hrest
        exact (lhaMember_keeps state).trans (ih hpass)

lemma membersSound_of_stopped (hgoes : lhaGoesOn n data state = false)
    (hstop : state.stopped = false) : MembersSound data (n - state.members) state.pos := by
  simp only [lhaGoesOn, decide_eq_false_iff_not] at hgoes
  by_cases hat : MemberAt data state.pos
  · rw [show n - state.members = 0 by
      by_contra hmore
      exact hgoes ⟨hstop, hat.1, hat.2, by omega⟩]
    trivial
  · exact membersSound_of_end hat _

/-- The loop reports nothing exactly when the members up to the limit are sound. -/
theorem lhaRun_clean_iff (hrun : lhaRun data n fuel state = .ok final)
    (hstop : state.stopped = false) (hclean : state.findings = []) :
    final.findings = [] ↔ MembersSound data (n - state.members) state.pos := by
  induction fuel generalizing state with
  | zero =>
      rcases lhaRun_cases hrun with ⟨hgoes, rfl⟩ | ⟨-, rest, hrest, -⟩
      · exact iff_of_true hclean (membersSound_of_stopped hgoes hstop)
      · omega
  | succ fuel ih =>
      rcases lhaRun_cases hrun with ⟨hgoes, rfl⟩ | ⟨hgoes, rest, hrest, hpass⟩
      · exact iff_of_true hclean (membersSound_of_stopped hgoes hstop)
      obtain rfl := Nat.succ.inj hrest
      simp only [lhaGoesOn, decide_eq_true_eq] at hgoes
      obtain ⟨-, hpos, hbyte, hmembers⟩ := hgoes
      rw [show n - state.members = n - (state.members + 1) + 1 by omega]
      rcases @lhaMember_cases data _ hstop hclean with
        ⟨hsound, hclean', hstop', hcount, hbehind⟩ | ⟨hbad, hfound⟩
      · rw [ih hpass hstop' hclean', hcount, hbehind]
        exact ⟨fun h _ => ⟨hsound, h⟩, fun h => (h ⟨hpos, hbyte⟩).2⟩
      · refine iff_of_false (fun h => hfound ?_) fun h => hbad (h ⟨hpos, hbyte⟩).1
        exact List.prefix_nil.1 (h ▸ lhaRun_keeps hpass)

end Run

/-- An archive is valid exactly when its members up to the limit are sound. -/
theorem lha_valid_iff {limits : StructuralLimits} :
    (∃ v, lha limits data = .ok v ∧ v.state = .valid) ↔ MembersSound data limits.maxNodes 0 := by
  obtain ⟨final, hfinal, -⟩ := lhaMembers_ok limits.maxNodes data
  have hiff : final.findings = [] ↔ MembersSound data limits.maxNodes 0 :=
    lhaRun_clean_iff hfinal rfl rfl
  rw [← hiff]
  constructor
  · rintro ⟨v, hv, hstate⟩
    obtain ⟨final', hfinal', hv⟩ := bind_eq_ok.1 hv
    obtain rfl := Except.ok.inj (hfinal.symm.trans hfinal')
    obtain rfl := Except.ok.inj hv
    exact findings_of_valid hstate
  · intro hclean
    refine ⟨_, bind_eq_ok.2 ⟨final, hfinal, rfl⟩, ?_⟩
    simp [result, hclean]

end Lha

/-! ## The validator -/

section Limits

variable {maxBytes n m frames : ℕ} {data : Bytes}

/-- The validator reports the file as valid. -/
def Valid (limits : StructuralLimits) (frames : ℕ) (data : Bytes) : Prop :=
  ∃ v, validate limits frames data = .ok (some v) ∧ v.state = .valid

/-- What is valid with a node limit is valid with a larger one. -/
def LimitKeepsValid (maxBytes n m frames : ℕ) (data : Bytes) : Prop :=
  n ≤ m → Valid ⟨maxBytes, n⟩ frames data → Valid ⟨maxBytes, m⟩ frames data

/-- There is nothing to find in what the limit `n` leaves out and the limit `m` does not. -/
def LeftOutIsSound (maxBytes n m : ℕ) (data : Bytes) : Prop :=
  match recognised data with
  | some .fat => RowsIdle n m data (Fat.Volume.ofBoot data)
  | some .lha => data.length ≤ maxBytes → MembersSound data n 0 →
      MembersSound data (m - n) (behindMembers data n 0)
  | _ => True

/-- What a file is validated as. -/
lemma valid_iff {limits : StructuralLimits} :
    Valid limits frames data ↔ match recognised data with
      | none => False
      | some .adf => data.length ≤ limits.maxBytes ∧ ∃ v, adf limits frames data = .ok v ∧
          v.state = .valid
      | some .fat => data.length ≤ limits.maxBytes ∧ ∃ v, fat limits frames data = .ok v ∧
          v.state = .valid
      | some .rdb => ∃ v, rdb data = .ok v ∧ v.state = .valid
      | some .iso9660 => ∃ v, iso limits data = .ok v ∧ v.state = .valid
      | some .lha => data.length ≤ limits.maxBytes ∧ ∃ v, lha limits data = .ok v ∧
          v.state = .valid := by
  have hmap : ∀ x : Except Exc StructuralValidation,
      (∃ v, some <$> x = .ok (some v) ∧ v.state = .valid) ↔ ∃ v, x = .ok v ∧ v.state = .valid :=
    fun x => exists_congr fun v => and_congr_left fun _ => map_some_eq_ok
  have hguard : ∀ {format : MediaFormat} {variant : Option String}
      {x : Except Exc StructuralValidation},
      (∃ v, (if data.length > limits.maxBytes then .ok (some (byteLimit format variant))
        else some <$> x) = .ok (some v) ∧ v.state = .valid) ↔
        data.length ≤ limits.maxBytes ∧ ∃ v, x = .ok v ∧ v.state = .valid := by
    intro format variant x
    by_cases hlong : data.length > limits.maxBytes
    · rw [if_pos hlong]
      refine iff_of_false ?_ fun h => absurd h.1 (by omega)
      rintro ⟨v, hv, hstate⟩
      exact byteLimit_not_valid hv hstate
    · rw [if_neg hlong, hmap]
      exact ⟨fun h => ⟨by omega, h⟩, fun h => h.2⟩
  unfold Valid validate
  cases recognised data with
  | none =>
      refine iff_of_false ?_ id
      rintro ⟨v, hv, -⟩
      cases hv
  | some format =>
      cases format with
      | adf => exact hguard
      | fat => exact hguard
      | rdb => exact hmap _
      | iso9660 => exact hmap _
      | lha => exact hguard

lemma iso_mono (hle : n ≤ m)
    (h : ∃ v, iso ⟨maxBytes, n⟩ data = .ok v ∧ v.state = .valid) :
    ∃ v, iso ⟨maxBytes, m⟩ data = .ok v ∧ v.state = .valid := by
  obtain ⟨v, hv, hstate⟩ := h
  unfold iso at hv ⊢
  simp only [] at hv ⊢
  cases hpvd : (volumeDescriptors data).pvd with
  | none =>
      rw [hpvd] at hv
      exact ⟨v, hv, hstate⟩
  | some pvd =>
      rw [hpvd] at hv
      obtain ⟨below, hbelow, hv⟩ := bind_eq_ok.1 hv
      obtain rfl := Except.ok.inj hv
      have hverdict := hstate
      simp only [result] at hverdict
      obtain rfl : below = [] := (List.append_eq_nil_iff.1 (findings_of_valid hverdict)).2
      exact ⟨_, bind_eq_ok.2 ⟨[], isoDirectories_mono hle hbelow, rfl⟩, hstate⟩

/-- A larger limit keeps what is valid, if there is nothing to find in what the smaller one leaves
out.  For all formats but FAT it does so in no other case. -/
theorem limit_keeps_valid (maxBytes n m frames : ℕ) (data : Bytes) :
    (LeftOutIsSound maxBytes n m data → LimitKeepsValid maxBytes n m frames data) ∧
      (recognised data ≠ some .fat → n ≤ m → LimitKeepsValid maxBytes n m frames data →
        LeftOutIsSound maxBytes n m data) := by
  unfold LeftOutIsSound LimitKeepsValid
  rw [valid_iff, valid_iff]
  cases recognised data with
  | none => exact ⟨fun _ _ h => h, fun _ _ _ => trivial⟩
  | some format =>
      cases format with
      | rdb => exact ⟨fun _ _ h => h, fun _ _ _ => trivial⟩
      | iso9660 => exact ⟨fun _ hle h => iso_mono hle h, fun _ _ _ => trivial⟩
      | adf =>
          refine ⟨fun _ hle ⟨hlong, h⟩ => ⟨hlong, ?_⟩, fun _ _ _ => trivial⟩
          obtain ⟨variant, hvariant⟩ := adf_valid_iff.1 h
          exact adf_valid_iff.2 ⟨variant, { hvariant with walk := walkAdf_mono hle hvariant.walk }⟩
      | fat =>
          refine ⟨fun hidle hle ⟨hlong, h⟩ => ⟨hlong, ?_⟩, fun hne => absurd rfl hne⟩
          obtain ⟨final, hfinal⟩ := fat_valid_iff.1 h
          exact fat_valid_iff.2 ⟨final, fatValid_mono hle hidle hfinal⟩
      | lha =>
          simp only [lha_valid_iff]
          have hadd : n ≤ m → (MembersSound data m 0 ↔
              MembersSound data n 0 ∧ MembersSound data (m - n) (behindMembers data n 0)) := by
            intro hle
            rw [← membersSound_add, Nat.add_sub_cancel' hle]
          constructor
          · rintro hrest hle ⟨hlong, hsound⟩
            exact ⟨hlong, (hadd hle).2 ⟨hsound, hrest hlong hsound⟩⟩
          · intro _ hle h hlong hsound
            exact ((hadd hle).1 (h hle ⟨hlong, hsound⟩).2).2

end Limits

/-! ### An archive with half a member behind a sound one -/

/-- The member header of an empty stored file without a name. -/
def emptyMember : Bytes :=
  22 :: 94 :: ascii "-lh0-" ++ List.replicate 17 0

/-- The archive. -/
def halfMember : Bytes := emptyMember ++ [1]

/-- With the limit of one member the archive is valid, with two it is truncated. -/
theorem half_member_valid_to_truncated :
    ¬LimitKeepsValid StructuralLimits.default.maxBytes 1 2 1000 halfMember := by
  intro h
  have hsmall : Valid ⟨StructuralLimits.default.maxBytes, 1⟩ 1000 halfMember := by
    rw [valid_iff, show recognised halfMember = some .lha by decide +kernel]
    simp only [lha_valid_iff]
    exact ⟨by decide, fun _ => ⟨by decide +kernel, trivial⟩⟩
  have hlarge := h (by decide) hsmall
  rw [valid_iff, show recognised halfMember = some .lha by decide +kernel] at hlarge
  simp only [lha_valid_iff] at hlarge
  have hmember : MemberAt halfMember 0 := by decide
  have hbehind : behindMember halfMember 0 = 24 := by decide +kernel
  have hrest : MembersSound halfMember 1 (behindMember halfMember 0) := (hlarge.2 hmember).2
  rw [hbehind] at hrest
  exact absurd (hrest (by decide)).1 (by decide +kernel)

end StructuralValidator

end AVBox
