import AVBox.Lib.Transitions
import Mathlib.Data.Set.Lattice
import Mathlib.Order.CompletePartialOrder

/-!
# Threads that share a state

Any number of threads take steps in any order, each on what they all share and on its own place in
its program.  A thread owns what its place says, and no two of them may own the same.

* `Holds.run` reduces what is to hold of the shared part, of each thread and of what they own to
  one step of one thread, as any other thread sees it.
* `Accounted.step` follows something that is always either free or owned by some thread.
* `count_step` counts those of some threads that are at a place.
-/

namespace Threads

open Transitions

variable {ι σ π ρ : Type}

/-- What the threads share, and where each of them is. -/
structure State (ι σ π : Type) where
  shared : σ
  points : ι → π

/-- One thread takes a step. -/
structure Step (Moves : ι → σ → π → σ → π → Prop) (s : State ι σ π) (i : ι) (t : State ι σ π) :
    Prop where
  moves : Moves i s.shared (s.points i) t.shared (t.points i)
  others : ∀ j, j ≠ i → t.points j = s.points j

/-- An assertion about the shared part, one about each thread, and that they own different
things. -/
structure Holds (I : σ → Prop) (P : ι → σ → π → Prop) (owns : π → Set ρ) (s : State ι σ π) :
    Prop where
  shared : I s.shared
  each : ∀ i, P i s.shared (s.points i)
  apart : ∀ i j, i ≠ j → Disjoint (owns (s.points i)) (owns (s.points j))

/-- What a step of a thread has to keep. -/
structure Keeps (I : σ → Prop) (P : ι → σ → π → Prop) (owns : π → Set ρ) (i : ι) (x : σ) (p : π)
    (x' : σ) (p' : π) : Prop where
  shared : I x'
  own : P i x' p'
  /-- Any other thread sees its assertion kept, and none of what it owns taken. -/
  others : ∀ j q, j ≠ i → P j x q → Disjoint (owns p) (owns q) →
    P j x' q ∧ Disjoint (owns p') (owns q)

section Rules

variable {Moves : ι → σ → π → σ → π → Prop} {I : σ → Prop} {P : ι → σ → π → Prop}
  {owns : π → Set ρ} {start s t : State ι σ π} {i j : ι} {trace : List (State ι σ π × ι)}

lemma Holds.step
    (hkeeps : ∀ {i x p x' p'}, I x → P i x p → Moves i x p x' p' → Keeps I P owns i x p x' p')
    (h : Holds I P owns s) (hstep : Step Moves s i t) : Holds I P owns t := by
  have hkept := hkeeps h.shared (h.each i) hstep.moves
  have hothers : ∀ j, j ≠ i → P j t.shared (t.points j) ∧
      Disjoint (owns (t.points i)) (owns (t.points j)) := by
    intro j hne
    rw [hstep.others j hne]
    exact hkept.others j _ hne (h.each j) (h.apart i j hne.symm)
  refine ⟨hkept.shared, fun j => ?_, fun j k hne => ?_⟩
  · by_cases hj : j = i
    · rw [hj]
      exact hkept.own
    · exact (hothers j hj).1
  · by_cases hj : j = i
    · subst hj
      exact (hothers k hne.symm).2
    by_cases hk : k = i
    · subst hk
      exact (hothers j hne).2.symm
    · rw [hstep.others j hj, hstep.others k hk]
      exact h.apart j k hne

/-- What every step keeps holds after every run. -/
theorem Holds.run
    (hkeeps : ∀ {i x p x' p'}, I x → P i x p → Moves i x p x' p' → Keeps I P owns i x p x' p')
    (hrun : Run (Step Moves) start trace s) (h : Holds I P owns start) : Holds I P owns s :=
  hrun.invariant (fun hs => hs.step hkeeps) h

/-- Something has one owner at most. -/
lemma Holds.owner_unique (h : Holds I P owns s) {r : ρ} (hi : r ∈ owns (s.points i))
    (hj : r ∈ owns (s.points j)) : i = j := by
  by_contra hne
  exact Set.disjoint_left.1 (h.apart i j hne) hi hj

/-- Something is free, or a thread owns it. -/
def Accounted (Free : σ → ρ → Prop) (owns : π → Set ρ) (s : State ι σ π) (r : ρ) : Prop :=
  Free s.shared r ∨ ∃ i, r ∈ owns (s.points i)

variable {Free : σ → ρ → Prop} {r : ρ}

lemma Accounted.step (hmoves : Free s.shared r ∨ r ∈ owns (s.points i) →
      Free t.shared r ∨ r ∈ owns (t.points i))
    (h : Accounted Free owns s r) (hstep : Step Moves s i t) : Accounted Free owns t r := by
  have hown : Free t.shared r ∨ r ∈ owns (t.points i) → Accounted Free owns t r :=
    fun h => h.imp_right fun h => ⟨i, h⟩
  obtain hfree | ⟨j, hj⟩ := h
  · exact hown (hmoves (.inl hfree))
  by_cases hji : j = i
  · rw [hji] at hj
    exact hown (hmoves (.inr hj))
  · rw [← hstep.others j hji] at hj
    exact .inr ⟨j, hj⟩

end Rules

/-! ## Counting -/

section Counting

variable {Moves : ι → σ → π → σ → π → Prop} {s t : State ι σ π} {i : ι} {threads : List ι}
  {p : π → Bool}

/-- How many of some threads are at a place. -/
def count (threads : List ι) (p : π → Bool) (s : State ι σ π) : ℕ :=
  threads.countP fun i => p (s.points i)

lemma count_of_not_mem (hstep : Step Moves s i t) (hi : i ∉ threads) :
    count threads p t = count threads p s := by
  refine List.countP_congr fun j hj => ?_
  rw [hstep.others j fun heq => hi (heq ▸ hj)]

/-- Only the thread that takes a step counts otherwise behind it. -/
lemma count_step (hstep : Step Moves s i t) (hnodup : threads.Nodup) (hi : i ∈ threads) :
    count threads p t + (p (s.points i)).toNat = count threads p s + (p (t.points i)).toNat := by
  obtain ⟨before, after, rfl⟩ := List.append_of_mem hi
  obtain ⟨-, hafter, hapart⟩ := List.nodup_append.1 hnodup
  have hbefore : i ∉ before := fun h => hapart i h i List.mem_cons_self rfl
  have hcount : count before p t = count before p s := count_of_not_mem hstep hbefore
  have hcount' : count after p t = count after p s :=
    count_of_not_mem hstep (List.nodup_cons.1 hafter).1
  simp only [count, List.countP_append, List.countP_cons] at hcount hcount' ⊢
  rw [hcount, hcount']
  cases p (s.points i) <;> cases p (t.points i) <;> simp [Nat.add_assoc]

end Counting

/-! ## Schedules -/

section Schedules

variable [DecidableEq ι] {advance : ι → σ → π → Option (σ × π)} {s t : State ι σ π}

/-- The threads that are named take a step each, as far as nothing keeps them waiting. -/
def follow (advance : ι → σ → π → Option (σ × π)) : List ι → State ι σ π → State ι σ π
  | [], s => s
  | i :: rest, s => match advance i s.shared (s.points i) with
      | none => follow advance rest s
      | some (x, p) => follow advance rest ⟨x, Function.update s.points i p⟩

variable (advance) in
/-- To follow a schedule is a run. -/
theorem run_follow (schedule : List ι) (s : State ι σ π) :
    ∃ trace, Run (Step fun i x p x' p' => advance i x p = some (x', p')) s trace
      (follow advance schedule s) ∧ ∀ taken ∈ trace, taken.2 ∈ schedule := by
  induction schedule generalizing s with
  | nil => exact ⟨[], .nil, fun taken h => by cases h⟩
  | cons i rest ih =>
      rw [follow]
      cases hadvance : advance i s.shared (s.points i) with
      | none =>
          obtain ⟨trace, hrun, hmem⟩ := ih s
          exact ⟨trace, hrun, fun taken h => List.mem_cons_of_mem _ (hmem taken h)⟩
      | some next =>
          obtain ⟨x, p⟩ := next
          obtain ⟨trace, hrun, hmem⟩ := ih ⟨x, Function.update s.points i p⟩
          refine ⟨[(s, i)] ++ trace, Run.trans (.snoc .nil ⟨?_, fun j hne => ?_⟩) hrun,
            fun taken h => ?_⟩
          · simpa using hadvance
          · exact Function.update_of_ne hne ..
          · obtain rfl | h := List.mem_cons.1 h
            · exact List.mem_cons_self
            · exact List.mem_cons_of_mem _ (hmem taken h)

end Schedules

end Threads
