import Mathlib.Data.List.Basic

/-!
# Runs of labelled steps

The steps of a system that several parties take in any order, and what holds after any number of
them.  A run keeps the state in which each step was taken.
-/

namespace Transitions

variable {σ α : Type}

/-- The runs of a system, with the steps they consist of. -/
inductive Run (Step : σ → α → σ → Prop) (start : σ) : List (σ × α) → σ → Prop
  | nil : Run Step start [] start
  | snoc {trace : List (σ × α)} {state state' : σ} {action : α}
      (run : Run Step start trace state) (step : Step state action state') :
      Run Step start (trace ++ [(state, action)]) state'

variable {Step : σ → α → σ → Prop} {start state : σ} {trace : List (σ × α)}

lemma Run.trans {later : List (σ × α)} {state' : σ} (h : Run Step start trace state)
    (hlater : Run Step state later state') : Run Step start (trace ++ later) state' := by
  induction hlater with
  | nil => rwa [List.append_nil]
  | snoc _ step ih =>
      rw [← List.append_assoc]
      exact ih.snoc step

/-- A run goes on from each state that it has passed. -/
lemma Run.split {taken : σ × α} (h : Run Step start trace state) (hmem : taken ∈ trace) :
    ∃ before after, Run Step start before taken.1 ∧ Run Step taken.1 after state := by
  induction h with
  | nil => cases hmem
  | @snoc trace s t action run step ih =>
      obtain hmem | hmem := List.mem_append.1 hmem
      · obtain ⟨before, after, hbefore, hafter⟩ := ih hmem
        exact ⟨before, _, hbefore, hafter.snoc step⟩
      · obtain rfl := List.mem_singleton.1 hmem
        exact ⟨trace, _, run, .snoc .nil step⟩

/-- What every step preserves holds after every run. -/
lemma Run.invariant {I : σ → Prop} (hstep : ∀ {s a t}, I s → Step s a t → I t)
    (h : Run Step start trace state) (hstart : I start) : I state := by
  induction h with
  | nil => exact hstart
  | snoc _ step ih => exact hstep ih step

/-- What only the steps of one kind break still holds exactly if none of them was taken. -/
lemma Run.iff_forall {I Good : σ → Prop} {Clear : σ × α → Prop}
    (hinv : ∀ {s a t}, I s → Step s a t → I t)
    (hstep : ∀ {s a t}, I s → Step s a t → (Good t ↔ Good s ∧ Clear (s, a)))
    (h : Run Step start trace state) (hI : I start) (hgood : Good start) :
    Good state ↔ ∀ taken ∈ trace, Clear taken := by
  induction h with
  | nil => exact iff_of_true hgood fun taken hmem => by cases hmem
  | snoc run step ih =>
      rw [hstep (run.invariant hinv hI) step, ih, List.forall_mem_append, List.forall_mem_singleton]

end Transitions
