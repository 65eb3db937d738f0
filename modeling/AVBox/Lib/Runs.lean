import Mathlib.Data.List.Basic

/-!
# Maximal runs

The matches of the regular expression `[p]{n,}`, for a class `p` of characters: the longest pieces
of a text that lie in the class, where they are long enough.
-/

namespace Runs

variable {α β : Type} {p : α → Bool} {n : ℕ}

/-- `runs`, inside of a run whose characters so far are given. -/
def runsFrom (p : α → Bool) (n : ℕ) (run : List α) : List α → List (List α)
  | [] => if n ≤ run.length then [run] else []
  | c :: text =>
      if p c then runsFrom p n (run ++ [c]) text
      else if n ≤ run.length then run :: runsFrom p n [] text
      else runsFrom p n [] text

/-- `re.finditer` for the expression `[p]{n,}`, where `n` is not zero. -/
def runs (p : α → Bool) (n : ℕ) (text : List α) : List (List α) := runsFrom p n [] text

/-- A piece of a text that lies in the class and cannot be made longer. -/
structure Maximal (p : α → Bool) (before run after : List α) : Prop where
  inside : ∀ c ∈ run, p c = true
  left : ∀ c ∈ before.getLast?, p c = false
  right : ∀ c ∈ after.head?, p c = false

lemma runsFrom_map (f : β → α) (run text : List β) :
    runsFrom p n (run.map f) (text.map f) = (runsFrom (p ∘ f) n run text).map (List.map f) := by
  induction text generalizing run with
  | nil => by_cases h : n ≤ run.length <;> simp [runsFrom, h]
  | cons c text ih =>
      have hnext := ih (run ++ [c])
      have hempty := ih []
      rw [List.map_append, List.map_singleton] at hnext
      rw [List.map_nil] at hempty
      simp only [List.map_cons, runsFrom, List.length_map, Function.comp_apply]
      split_ifs
      · exact hnext
      · rw [List.map_cons, hempty]
      · exact hempty

/-- The runs of a relabelled text. -/
theorem runs_map (f : β → α) (text : List β) :
    runs p n (text.map f) = (runs (p ∘ f) n text).map (List.map f) := runsFrom_map f [] text

/-! ## Pieces at their places -/

/-- A piece of a text, between what stands before it and what stands after it. -/
structure Piece (α : Type) where
  before : List α
  run : List α
  after : List α

def Piece.text (piece : Piece α) : List α := piece.before ++ piece.run ++ piece.after

/-- The pieces of a text that the expression matches. -/
structure Piece.Matches (p : α → Bool) (n : ℕ) (text : List α) (piece : Piece α) : Prop where
  text : piece.text = text
  length : n ≤ piece.run.length
  maximal : Maximal p piece.before piece.run piece.after

/-- The list holds every piece of a text that the expression matches, once. -/
structure EachOnce (p : α → Bool) (n : ℕ) (text : List α) (found : List (Piece α)) : Prop where
  nodup : found.Nodup
  mem_iff : ∀ piece, piece ∈ found ↔ piece.Matches p n text

/-- The pieces that a stricter expression matches. -/
lemma EachOnce.filter {m : ℕ} {text : List α} {found : List (Piece α)}
    (h : EachOnce p n text found) (hle : n ≤ m) :
    EachOnce p m text (found.filter fun piece => m ≤ piece.run.length) := by
  refine ⟨h.nodup.filter _, fun piece => ?_⟩
  rw [List.mem_filter, h.mem_iff, decide_eq_true_eq]
  constructor
  · rintro ⟨hmatches, hlength⟩
    exact ⟨hmatches.text, hlength, hmatches.maximal⟩
  · rintro ⟨htext, hlength, hmaximal⟩
    exact ⟨⟨htext, Nat.le_trans hle hlength, hmaximal⟩, hlength⟩

/-- `pieces`, inside of a run whose characters so far are given, behind what is read already. -/
def piecesFrom (p : α → Bool) (n : ℕ) (before run : List α) : List α → List (Piece α)
  | [] => if n ≤ run.length then [⟨before, run, []⟩] else []
  | c :: text =>
      if p c then piecesFrom p n before (run ++ [c]) text
      else if n ≤ run.length then
        ⟨before, run, c :: text⟩ :: piecesFrom p n (before ++ run ++ [c]) [] text
      else piecesFrom p n (before ++ run ++ [c]) [] text

/-- The matches together with their places. -/
def pieces (p : α → Bool) (n : ℕ) (text : List α) : List (Piece α) := piecesFrom p n [] [] text

lemma map_run_piecesFrom (before run text : List α) :
    (piecesFrom p n before run text).map Piece.run = runsFrom p n run text := by
  induction text generalizing before run with
  | nil => by_cases h : n ≤ run.length <;> simp [piecesFrom, runsFrom, h]
  | cons c text ih =>
      rw [piecesFrom, runsFrom]
      split_ifs
      · exact ih _ _
      · rw [List.map_cons, ih]
      · exact ih _ _

lemma map_run_pieces (text : List α) : (pieces p n text).map Piece.run = runs p n text :=
  map_run_piecesFrom [] [] text

/-- What is found behind a text matches, and does not begin within that text. -/
lemma matches_of_mem_piecesFrom {before run text : List α} {piece : Piece α}
    (hbefore : ∀ c ∈ before.getLast?, p c = false) (hrun : ∀ c ∈ run, p c = true)
    (h : piece ∈ piecesFrom p n before run text) :
    piece.Matches p n (before ++ run ++ text) ∧ before.length ≤ piece.before.length := by
  induction text generalizing before run with
  | nil =>
      by_cases hlength : n ≤ run.length
      · simp only [piecesFrom, hlength, if_true, List.mem_singleton] at h
        subst h
        exact ⟨⟨rfl, hlength, hrun, hbefore, by simp⟩, Nat.le_refl _⟩
      · simp [piecesFrom, hlength] at h
  | cons c text ih =>
      -- After a character outside of the class the search begins anew.
      have hanew (hc : p c = false) (h : piece ∈ piecesFrom p n (before ++ run ++ [c]) [] text) :
          piece.Matches p n (before ++ run ++ c :: text) ∧
            before.length ≤ piece.before.length := by
        obtain ⟨hmatches, hlength⟩ := ih (by simpa using hc) (by simp) h
        refine ⟨by simpa using hmatches, ?_⟩
        simp only [List.length_append, List.length_singleton] at hlength
        omega
      rw [piecesFrom] at h
      split_ifs at h with hc hlength
      · have hnext : ∀ other ∈ run ++ [c], p other = true := by
          simpa [or_imp, forall_and, hc] using hrun
        simpa using ih hbefore hnext h
      · rcases List.mem_cons.1 h with rfl | h
        · exact ⟨⟨rfl, hlength, hrun, hbefore, by simpa using hc⟩, Nat.le_refl _⟩
        · exact hanew (by simpa using hc) h
      · exact hanew (by simpa using hc) h

/-- The run that the search is in is found. -/
lemma mem_piecesFrom_front {before rest after : List α} (run : List α)
    (hrest : ∀ c ∈ rest, p c = true) (hafter : ∀ c ∈ after.head?, p c = false)
    (hlength : n ≤ (run ++ rest).length) :
    ⟨before, run ++ rest, after⟩ ∈ piecesFrom p n before run (rest ++ after) := by
  induction rest generalizing run with
  | nil =>
      rw [List.append_nil] at hlength
      cases after with
      | nil => simp [piecesFrom, hlength]
      | cons c after =>
          have hc : p c = false := hafter c rfl
          simp [piecesFrom, hlength, hc]
  | cons c rest ih =>
      have hnext := ih (run ++ [c]) (fun other hmem => hrest other (List.mem_cons_of_mem _ hmem))
        (by simpa using hlength)
      rw [List.cons_append, piecesFrom, if_pos (hrest c List.mem_cons_self)]
      simpa using hnext

/-- What comes after a character outside of the class is searched anew. -/
lemma piecesFrom_append {front : List α} (before run text : List α) (hnonempty : front ≠ [])
    (hlast : ∀ c ∈ front.getLast?, p c = false) :
    ∃ found, piecesFrom p n before run (front ++ text) =
      found ++ piecesFrom p n (before ++ run ++ front) [] text := by
  induction front generalizing before run with
  | nil => exact absurd rfl hnonempty
  | cons c front ih =>
      rw [List.cons_append, piecesFrom]
      cases front with
      | nil =>
          have hc : p c = false := hlast c rfl
          rw [if_neg (by simp [hc])]
          split_ifs
          · exact ⟨[⟨before, run, c :: text⟩], rfl⟩
          · exact ⟨[], rfl⟩
      | cons other front =>
          have hrec (before run : List α) := ih before run (List.cons_ne_nil _ _)
            (by rwa [List.getLast?_cons_cons] at hlast)
          split_ifs
          · simpa using hrec before (run ++ [c])
          · obtain ⟨found, hfound⟩ := hrec (before ++ run ++ [c]) []
            refine ⟨⟨before, run, c :: (other :: front ++ text)⟩ :: found, ?_⟩
            rw [hfound]
            simp
          · simpa using hrec (before ++ run ++ [c]) []

/-- The pieces are the maximal ones that are long enough. -/
theorem mem_pieces_iff {text : List α} {piece : Piece α} :
    piece ∈ pieces p n text ↔ piece.Matches p n text := by
  constructor
  · intro h
    exact (matches_of_mem_piecesFrom (by simp) (by simp) h).1
  · rintro ⟨rfl, hlength, hmaximal⟩
    have hmem : piece ∈ piecesFrom p n piece.before [] (piece.run ++ piece.after) :=
      mem_piecesFrom_front [] hmaximal.inside hmaximal.right hlength
    rw [pieces, Piece.text, List.append_assoc]
    by_cases hbefore : piece.before = []
    · rwa [hbefore] at hmem ⊢
    · obtain ⟨others, hothers⟩ := @piecesFrom_append _ p n _ [] [] (piece.run ++ piece.after)
        hbefore hmaximal.left
      rw [hothers]
      exact List.mem_append_right _ hmem

lemma nodup_piecesFrom {before run text : List α} : (piecesFrom p n before run text).Nodup := by
  induction text generalizing before run with
  | nil => by_cases h : n ≤ run.length <;> simp [piecesFrom, h]
  | cons c text ih =>
      rw [piecesFrom]
      split_ifs with hc
      · exact ih
      · refine List.nodup_cons.2 ⟨fun h => ?_, ih⟩
        have hlength := (matches_of_mem_piecesFrom (by simpa using hc) (by simp) h).2
        simp only [List.length_append, List.length_singleton] at hlength
        omega
      · exact ih

theorem pieces_eachOnce (text : List α) : EachOnce p n text (pieces p n text) :=
  ⟨nodup_piecesFrom, fun _ => mem_pieces_iff⟩

/-- The matches are the maximal pieces that are long enough. -/
theorem mem_runs_iff {text found : List α} :
    found ∈ runs p n text ↔ n ≤ found.length ∧ ∃ before after,
      text = before ++ found ++ after ∧ Maximal p before found after := by
  rw [← map_run_pieces, List.mem_map]
  constructor
  · rintro ⟨piece, hpiece, rfl⟩
    obtain ⟨htext, hlength, hmaximal⟩ := mem_pieces_iff.1 hpiece
    exact ⟨hlength, piece.before, piece.after, htext.symm, hmaximal⟩
  · rintro ⟨hlength, before, after, rfl, hmaximal⟩
    exact ⟨⟨before, found, after⟩, mem_pieces_iff.2 ⟨rfl, hlength, hmaximal⟩, rfl⟩

end Runs
