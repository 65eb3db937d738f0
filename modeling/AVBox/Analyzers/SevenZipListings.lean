import AVBox.Analyzers.ListingErrors

/-!
# Listings of 7z that are read as they were printed

The blocks that `7z l -slt` prints for its members, and what the parser makes of them.  A member is
read as it was printed if its name is a line for `splitlines` too, has no blanks at its ends, and is
not empty or a dot (`sevenZip_lists_iff`).
-/

namespace AVBox

open PyStr Numerals

namespace PyStr

/-! ## Lines -/

/-- No line ends in the text. -/
def Unbroken (text : PyStr) : Prop := ∀ c ∈ text, isLineBreak c = false

lemma unbroken_of_all {text : PyStr} (h : text.all fun c => !isLineBreak c) : Unbroken text :=
  fun c hc => by simpa using List.all_eq_true.1 h c hc

lemma Unbroken.append {first second : PyStr} (hfirst : Unbroken first) (hsecond : Unbroken second) :
    Unbroken (first ++ second) :=
  fun c hc => (List.mem_append.1 hc).elim (hfirst c) (hsecond c)

lemma linesFrom_unbroken {text : PyStr} (h : Unbroken text) (line rest : PyStr) :
    linesFrom false line (text ++ rest) = linesFrom false (line ++ text) rest := by
  induction text generalizing line with
  | nil => rw [List.append_nil, List.nil_append]
  | cons c text ih =>
      obtain ⟨hc, htext⟩ := List.forall_mem_cons.1 h
      rw [List.cons_append, linesFrom, if_neg (by simp), if_neg (by simp [hc]), ih htext,
        List.append_assoc]
      rfl

lemma splitLines_newline {text : PyStr} (h : Unbroken text) (rest : PyStr) :
    splitLines (text ++ 0x0A :: rest) = text :: splitLines rest := by
  rw [splitLines, linesFrom_unbroken h, List.nil_append, linesFrom, if_neg (by simp),
    if_pos (by decide)]
  rfl

lemma splitLines_unbroken {text : PyStr} (h : Unbroken text) (hne : text ≠ []) :
    splitLines text = [text] := by
  have hlines := linesFrom_unbroken h [] []
  rw [List.append_nil, List.nil_append] at hlines
  rw [splitLines, hlines, linesFrom, if_neg hne]

lemma splitLines_lines {lines : List PyStr} (h : ∀ line ∈ lines, Unbroken line) :
    splitLines (lines.flatMap fun line => line ++ [0x0A]) = lines := by
  induction lines with
  | nil => rfl
  | cons line lines ih =>
      obtain ⟨hline, hlines⟩ := List.forall_mem_cons.1 h
      rw [List.flatMap_cons, List.append_assoc, List.singleton_append, splitLines_newline hline,
        ih hlines]

lemma unbroken_of_mem_linesFrom {text line word : PyStr} {afterCr : Bool} (hword : Unbroken word)
    (h : line ∈ linesFrom afterCr word text) : Unbroken line := by
  have hnil : Unbroken [] := fun _ hmem => absurd hmem List.not_mem_nil
  induction text generalizing word afterCr with
  | nil =>
      rw [linesFrom] at h
      split at h
      · cases h
      · rwa [List.mem_singleton.1 h]
  | cons c text ih =>
      rw [linesFrom] at h
      split at h
      · exact ih hword h
      split at h
      · rcases List.mem_cons.1 h with rfl | h
        · exact hword
        · exact ih hnil h
      next hc =>
        refine ih (fun d hd => ?_) h
        rcases List.mem_append.1 hd with hd | hd
        · exact hword d hd
        · rw [List.mem_singleton.1 hd]
          exact Bool.eq_false_iff.2 hc

/-- The lines of a text hold no line breaks. -/
lemma unbroken_of_mem_splitLines {text line : PyStr} (h : line ∈ splitLines text) :
    Unbroken line :=
  unbroken_of_mem_linesFrom (fun _ hmem => absurd hmem List.not_mem_nil) h

/-- A newline at the end of the last line makes no other line. -/
lemma linesFrom_append_newline {last : PyStr} (h : Unbroken last) (hne : last ≠ [])
    (afterCr : Bool) (word text : PyStr) :
    linesFrom afterCr word (text ++ last ++ [0x0A]) = linesFrom afterCr word (text ++ last) := by
  induction text generalizing afterCr word with
  | nil =>
      rcases last with _ | ⟨c, last⟩
      · exact absurd rfl hne
      obtain ⟨hc, hlast⟩ := List.forall_mem_cons.1 h
      have hnewline : ¬c.val = 0x0A := by
        intro heq
        obtain rfl : c = 0x0A := Fin.ext heq
        exact absurd hc (by decide)
      have hend := linesFrom_unbroken hlast (word ++ [c]) []
      rw [List.append_nil] at hend
      rw [List.nil_append, List.cons_append, linesFrom, linesFrom, if_neg (by simp [hnewline]),
        if_neg (by simp [hc]), if_neg (by simp [hnewline]), if_neg (by simp [hc]),
        linesFrom_unbroken hlast, hend, linesFrom, linesFrom, if_neg (by simp),
        if_pos (by decide), if_neg (by simp), linesFrom]
      rfl
  | cons c text ih =>
      rw [List.cons_append, List.cons_append, linesFrom, linesFrom]
      split
      · exact ih false word
      split
      · rw [ih]
      · exact ih false (word ++ [c])

/-! ## Blocks -/

lemma blocksFrom_cons {c : Fin 0x110000} {rest : PyStr}
    (h : ∀ d ∈ rest.head?, ¬(c.val = 0x0A ∧ d.val = 0x0A)) (block : PyStr) :
    blocksFrom block (c :: rest) = blocksFrom (block ++ [c]) rest := by
  rcases rest with _ | ⟨d, rest⟩
  · rfl
  · rw [blocksFrom, if_neg (h d rfl)]

lemma blocksFrom_line {line : PyStr} (h : ∀ c ∈ line, c.val ≠ 0x0A) (block rest : PyStr) :
    blocksFrom block (line ++ rest) = blocksFrom (block ++ line) rest := by
  induction line generalizing block with
  | nil => rw [List.append_nil, List.nil_append]
  | cons c line ih =>
      obtain ⟨hc, hline⟩ := List.forall_mem_cons.1 h
      rw [List.cons_append, blocksFrom_cons fun d _ hboth => hc hboth.1, ih hline,
        List.append_assoc]
      rfl

lemma blocksFrom_newline {rest : PyStr} (h : ∀ c ∈ rest.head?, c.val ≠ 0x0A) (block : PyStr) :
    blocksFrom block (0x0A :: rest) = blocksFrom (block ++ [0x0A]) rest :=
  blocksFrom_cons (fun d hd hboth => h d hd hboth.2) block

lemma blocksFrom_blank (block rest : PyStr) :
    blocksFrom block (0x0A :: 0x0A :: rest) = block :: blocksFrom [] rest := by
  rw [blocksFrom, if_pos ⟨rfl, rfl⟩]

/-! ## Blanks at the ends -/

lemma strip_eq_self {text : PyStr} (h : Trimmed isSpace text) : strip text = text := h.eq

lemma strip_cons {c : Fin 0x110000} (hc : isSpace c) (text : PyStr) :
    strip (c :: text) = strip text := by
  rw [strip, strip, List.dropWhile_cons_of_pos hc]

lemma mem_of_mem_strip {text : PyStr} {c : Fin 0x110000} (h : c ∈ strip text) : c ∈ text := by
  rw [strip, rstrip, rstripOf, List.mem_reverse] at h
  exact (List.dropWhile_suffix isSpace).subset
    (List.mem_reverse.1 ((List.dropWhile_suffix isSpace).subset h))

end PyStr

namespace Listings

/-! ## Assignments -/

lemma assignment_printed {key : PyStr} (hkey : 0x3D ∉ key) (value : PyStr) :
    assignment (key ++ 0x3D :: value) = some (strip key, strip value) := by
  have htake : (key ++ 0x3D :: value).takeWhile (· ≠ 0x3D) = key := by
    rw [List.takeWhile_append_of_pos fun c hc => by
        simpa using fun heq : c = 0x3D => hkey (heq ▸ hc),
      List.takeWhile_cons_of_neg (by simp), List.append_nil]
  rw [assignment, if_pos (by simp), htake]
  dsimp only
  rw [← List.drop_drop, List.drop_left]
  rfl

/-- The values of a block hold no line breaks. -/
lemma unbroken_of_valueOf {key : String} {block value : PyStr}
    (h : valueOf key block = some value) : Unbroken value := by
  obtain ⟨before, after, hpairs, -⟩ := List.lookup_eq_some_iff.1 h
  have hmem : (ofString key, value) ∈ assignments block := by simp [hpairs]
  obtain ⟨line, hmemLine, hline⟩ := List.mem_filterMap.1 (List.mem_reverse.1 hmem)
  unfold assignment at hline
  split at hline
  · obtain ⟨-, rfl⟩ := Prod.mk.inj (Option.some.inj hline)
    exact fun c hc => unbroken_of_mem_splitLines hmemLine c
      (List.mem_of_mem_drop (mem_of_mem_strip hc))
  · cases hline

/-! ## The printed listing -/

/-- A member as `7z l -slt` prints it. -/
structure SevenZipMember where
  name : PyStr
  size : ℕ
  attributes : PyStr
  line : ∀ c ∈ name, c.val ≠ 0x0A ∧ c.val ≠ 0x0D
  printable : ∀ c ∈ attributes, 0x20 ≤ c.val ∧ c.val < 0x7F

namespace SevenZipMember

variable (member : SevenZipMember)

def pathLine : PyStr := ofString "Path = " ++ member.name

def sizeLine : PyStr := ofString "Size = " ++ ofNat member.size

def attributesLine : PyStr := ofString "Attributes = " ++ member.attributes

/-- The lines of the block, without the newline behind the last one. -/
def block : PyStr :=
  member.pathLine ++ 0x0A :: (member.sizeLine ++ 0x0A :: member.attributesLine)

end SevenZipMember

/-- The blocks, with a blank line between them. -/
def printSevenZip (listed : List SevenZipMember) : PyStr :=
  List.intercalate (ofString "\n") (listed.map fun member => member.block ++ ofString "\n")

/-- The names and sizes that a listing is read as. -/
def Lists (numerals : Numerals) (kind : Kind) (output : PyStr) (expected : List (PyStr × ℕ)) :
    Prop :=
  ∃ listed, members numerals kind output = .ok listed ∧
    listed.map (fun member => (member.name, member.declared)) =
      expected.map fun entry => (entry.1, .ok (entry.2 : ℤ))

variable {numerals : Numerals}

lemma unbroken_attributes (member : SevenZipMember) : Unbroken member.attributesLine := by
  refine (unbroken_of_all (by decide +kernel)).append fun c hc => ?_
  have hprintable := member.printable c hc
  simp only [isLineBreak, List.mem_cons, List.not_mem_nil, or_false, decide_eq_false_iff_not]
  omega

lemma unbroken_size (member : SevenZipMember) : Unbroken member.sizeLine := by
  refine (unbroken_of_all (by decide +kernel)).append fun c hc => ?_
  have hdigit := digit_of_mem_ofNat hc
  simp only [isLineBreak, List.mem_cons, List.not_mem_nil, or_false, decide_eq_false_iff_not]
  omega

lemma unbroken_path {member : SevenZipMember} (h : Unbroken member.name) :
    Unbroken member.pathLine :=
  (unbroken_of_all (by decide +kernel)).append h

/-- A member that is read as it was printed. -/
structure SevenZipReads (member : SevenZipMember) : Prop where
  unbroken : Unbroken member.name
  stripped : strip member.name = member.name
  named : member.name ≠ [] ∧ member.name ∉ [ofString ".", ofString ".."]
  short : (ofNat member.size).length ≤ 4300

lemma splitLines_block {member : SevenZipMember} (h : Unbroken member.name) :
    splitLines member.block = [member.pathLine, member.sizeLine, member.attributesLine] := by
  rw [SevenZipMember.block, splitLines_newline (unbroken_path h),
    splitLines_newline (unbroken_size member),
    splitLines_unbroken (unbroken_attributes member)]
  exact List.append_ne_nil_of_left_ne_nil (by decide +kernel) _

lemma assignments_block {member : SevenZipMember} (h : Unbroken member.name) :
    assignments member.block =
      [(ofString "Attributes", strip member.attributes), (ofString "Size", ofNat member.size),
        (ofString "Path", strip member.name)] := by
  have hassignment : ∀ (key : String) (value : PyStr), 0x3D ∉ ofString (key ++ " ") →
      strip (ofString (key ++ " ")) = ofString key →
      ofString (key ++ " = ") = ofString (key ++ " ") ++ [0x3D, 0x20] →
      assignment (ofString (key ++ " = ") ++ value) = some (ofString key, strip value) := by
    intro key value hkey hstrip hprinted
    rw [hprinted, List.append_assoc]
    refine (assignment_printed hkey (0x20 :: value)).trans ?_
    rw [hstrip, strip_cons (by decide)]
  have hpath := hassignment "Path" member.name (by decide +kernel) (by decide +kernel)
    (by decide +kernel)
  have hsize := hassignment "Size" (ofNat member.size) (by decide +kernel) (by decide +kernel)
    (by decide +kernel)
  have hattributes := hassignment "Attributes" member.attributes (by decide +kernel)
    (by decide +kernel) (by decide +kernel)
  rw [strip_eq_self (.of_solid (solid_ofNat member.size))] at hsize
  rw [assignments, splitLines_block h]
  simp only [SevenZipMember.pathLine, SevenZipMember.sizeLine, SevenZipMember.attributesLine]
  exact congrArg List.reverse (List.filterMap_cons_some hpath |>.trans (congrArg _
    (List.filterMap_cons_some hsize |>.trans (congrArg _
      (List.filterMap_cons_some hattributes)))))

/-- What the block of a member is read as. -/
lemma sevenZipRow_block {member : SevenZipMember} (h : Unbroken member.name) :
    ∃ directory, sevenZipRow member.block =
      if strip member.name = [] ∨ strip member.name ∈ [ofString ".", ofString ".."] then none
      else some ⟨strip member.name, ofNat member.size, directory⟩ := by
  have hpath : valueOf "Path" member.block = some (strip member.name) := by
    rw [valueOf, assignments_block h]
    rfl
  have hsize : valueOf "Size" member.block = some (ofNat member.size) := by
    rw [valueOf, assignments_block h]
    rfl
  rw [sevenZipRow, hpath, hsize]
  exact ⟨_, rfl⟩

lemma sevenZip_reads_iff {member : SevenZipMember} :
    (sevenZipRow member.block).map (fun row => (row.name, row.declared numerals)) =
        some (member.name, .ok (member.size : ℤ)) ↔ SevenZipReads member := by
  have hdeclared : ∀ name directory,
      SevenZipRow.declared numerals ⟨name, ofNat member.size, directory⟩ =
        numerals.int (ofNat member.size) := by
    intro name directory
    rw [SevenZipRow.declared]
    dsimp only
    rw [if_neg (ofNat_ne_nil member.size)]
  constructor
  · intro h
    obtain ⟨row, hrow, heq⟩ := Option.map_eq_some_iff.1 h
    obtain ⟨hname, hsize⟩ := Prod.mk.inj heq
    have hunbroken : Unbroken member.name := by
      rw [← hname]
      unfold sevenZipRow at hrow
      split at hrow
      next name size hpath _ =>
        split at hrow
        · cases hrow
        · obtain rfl := Option.some.inj hrow
          exact unbroken_of_valueOf hpath
      next => cases hrow
    obtain ⟨directory, hblock⟩ := sevenZipRow_block hunbroken
    rw [hrow] at hblock
    split at hblock
    · cases hblock
    next hnamed =>
      obtain rfl := Option.some.inj hblock
      dsimp only at hname
      rw [hname, not_or] at hnamed
      rw [hdeclared] at hsize
      refine ⟨hunbroken, hname, hnamed, ?_⟩
      have hdigits := (int_ok_iff_isDecimal (ofNat_ne_nil member.size) (solid_ofNat member.size)
        fun c hc => @isDigit_of_mem_ofNat numerals _ c hc).1 ⟨_, hsize⟩
      exact hdigits.2
  · intro h
    obtain ⟨directory, hblock⟩ := sevenZipRow_block h.unbroken
    rw [h.stripped, if_neg (not_or.2 h.named)] at hblock
    rw [hblock, Option.map_some, hdeclared, int_ofNat h.short]

lemma sevenZipRow_append_newline (member : SevenZipMember) :
    sevenZipRow (member.block ++ [0x0A]) = sevenZipRow member.block := by
  have hlines : splitLines (member.block ++ [0x0A]) = splitLines member.block := by
    have hblock : member.block = (member.pathLine ++ 0x0A :: (member.sizeLine ++ [0x0A])) ++
        member.attributesLine := by simp [SevenZipMember.block]
    rw [hblock]
    exact linesFrom_append_newline (unbroken_attributes member)
      (List.append_ne_nil_of_left_ne_nil (by decide +kernel) _) false [] _
  have hvalues : ∀ key, valueOf key (member.block ++ [0x0A]) = valueOf key member.block := by
    intro key
    rw [valueOf, valueOf, assignments, assignments, hlines]
  rw [sevenZipRow, sevenZipRow, hvalues, hvalues, hvalues, hvalues]

/-- The parser takes the printed blocks apart. -/
lemma blocksFrom_block (member : SevenZipMember) (rest : PyStr) :
    blocksFrom [] (member.block ++ rest) = blocksFrom member.block rest := by
  have hbreak : ∀ {text : PyStr}, Unbroken text → ∀ c ∈ text, c.val ≠ 0x0A := by
    intro text htext c hc heq
    obtain rfl : c = 0x0A := Fin.ext heq
    exact absurd (htext _ hc) (by decide)
  have hpath : ∀ c ∈ member.pathLine, c.val ≠ 0x0A := fun c hc =>
    (List.mem_append.1 hc).elim (hbreak (unbroken_of_all (by decide +kernel)) c)
      fun hc => (member.line c hc).1
  have hsize : ∃ tail, member.sizeLine = 0x53 :: tail := ⟨_, rfl⟩
  have hattributes : ∃ tail, member.attributesLine = 0x41 :: tail := ⟨_, rfl⟩
  have hhead : ∀ {line : PyStr} {d : Fin 0x110000} (rest : PyStr), (∃ tail, line = d :: tail) →
      d.val ≠ 0x0A → ∀ c ∈ (line ++ rest).head?, c.val ≠ 0x0A := by
    rintro line d rest ⟨tail, rfl⟩ hd c hc
    obtain rfl := Option.some.inj hc
    exact hd
  rw [SevenZipMember.block, List.append_assoc, List.cons_append, List.append_assoc,
    List.cons_append, blocksFrom_line hpath, blocksFrom_newline (hhead _ hsize (by decide)),
    blocksFrom_line (hbreak (unbroken_size member)),
    blocksFrom_newline (hhead _ hattributes (by decide)),
    blocksFrom_line (hbreak (unbroken_attributes member))]
  simp only [List.append_assoc, List.nil_append, List.cons_append]

lemma parse7zListing_print (listed : List SevenZipMember) :
    parse7zListing (printSevenZip listed) =
      listed.filterMap fun member => sevenZipRow member.block := by
  rcases listed with _ | ⟨member, listed⟩
  · rfl
  rw [parse7zListing, blocks]
  induction listed generalizing member with
  | nil =>
      have hprint : printSevenZip [member] = member.block ++ [0x0A] := by
        rw [printSevenZip, List.map_singleton, List.intercalate_singleton]
        rfl
      have hblock : blocksFrom [] (member.block ++ [0x0A]) = [member.block ++ [0x0A]] :=
        blocksFrom_block member [0x0A]
      rw [hprint, hblock, List.filterMap_cons, sevenZipRow_append_newline]
      rfl
  | cons second listed ih =>
      have hprint : printSevenZip (member :: second :: listed) =
          member.block ++ 0x0A :: 0x0A :: printSevenZip (second :: listed) := by
        rw [printSevenZip, List.map_cons, List.intercalate_cons_of_ne_nil (by simp)]
        simp only [List.append_assoc]
        rfl
      rw [hprint, blocksFrom_block, blocksFrom_blank, List.filterMap_cons, ih second]
      rfl

/-- The printed listing is read as it was printed if each member is. -/
theorem sevenZip_lists_iff {kind : Kind} (hkind : kind ≠ .lha) (listed : List SevenZipMember) :
    Lists numerals kind (printSevenZip listed)
        (listed.map fun member => (member.name, member.size)) ↔
      ∀ member ∈ listed, SevenZipReads member := by
  have hlists : Lists numerals kind (printSevenZip listed)
      (listed.map fun member => (member.name, member.size)) ↔
      (listed.filterMap fun member => (sevenZipRow member.block).map fun row =>
        (row.name, row.declared numerals)) =
        listed.map fun member => (member.name, .ok (member.size : ℤ)) := by
    rw [← List.map_filterMap, ← parse7zListing_print]
    constructor
    · rintro ⟨members, hmembers, heq⟩
      rw [members_sevenZip hkind] at hmembers
      obtain rfl := Except.ok.inj hmembers
      rw [List.map_map, List.map_map] at heq
      exact heq
    · intro heq
      refine ⟨_, members_sevenZip hkind _, ?_⟩
      rw [List.map_map, List.map_map]
      exact heq
  rw [hlists, List.filterMap_eq_map_iff_forall_eq_some]
  simp only [sevenZip_reads_iff]

end Listings

end AVBox
