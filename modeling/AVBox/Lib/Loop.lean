import AVBox.Lib.Fallible
import Mathlib.Data.List.Basic
import Mathlib.Logic.Relation

/-!
# While loops

A loop whose body may fail, run with fuel, and the states it reaches.  A measure that every pass
lowers shows that the fuel is enough (`run_cases`).
-/

namespace Loop

variable {σ ε : Type}

/-- `while goesOn: body`, at most `fuel` passes. -/
def run (unending : ε) (goesOn : σ → Bool) (body : σ → Except ε σ) : ℕ → σ → Except ε σ
  | fuel, state =>
      if goesOn state = false then .ok state
      else match fuel with
        | 0 => .error unending
        | fuel + 1 => do run unending goesOn body fuel (← body state)

variable {unending : ε} {goesOn : σ → Bool} {body : σ → Except ε σ}

lemma run_of_stopped {state : σ} (h : goesOn state = false) (fuel : ℕ) :
    run unending goesOn body fuel state = .ok state := by
  unfold run
  rw [if_pos h]

lemma run_of_pass {state state' : σ} (h : goesOn state = true) (hbody : body state = .ok state')
    (fuel : ℕ) :
    run unending goesOn body (fuel + 1) state = run unending goesOn body fuel state' := by
  rw [run, if_neg (by simp [h]), hbody]
  rfl

lemma run_of_error {state : σ} {e : ε} (h : goesOn state = true) (hbody : body state = .error e)
    (fuel : ℕ) : run unending goesOn body (fuel + 1) state = .error e := by
  rw [run, if_neg (by simp [h]), hbody]
  rfl

/-- One pass of the loop. -/
def Pass (goesOn : σ → Bool) (body : σ → Except ε σ) (state state' : σ) : Prop :=
  goesOn state = true ∧ body state = .ok state'

/-- The states at which the condition of the loop is evaluated. -/
def Reaches (goesOn : σ → Bool) (body : σ → Except ε σ) : σ → σ → Prop :=
  Relation.ReflTransGen (Pass goesOn body)

/-- What every pass preserves. -/
lemma Reaches.invariant {I : σ → Prop} (hpass : ∀ {s s'}, I s → Pass goesOn body s s' → I s')
    {state state' : σ} (h : Reaches goesOn body state state') (hI : I state) : I state' := by
  induction h with
  | refl => exact hI
  | tail _ hstep ih => exact hpass ih hstep

/-- A loop that ends has gone through its passes. -/
lemma reaches_of_run {fuel : ℕ} {state final : σ}
    (h : run unending goesOn body fuel state = .ok final) :
    Reaches goesOn body state final ∧ goesOn final = false := by
  induction fuel generalizing state with
  | zero =>
      cases hgoes : goesOn state with
      | false =>
          obtain rfl := Except.ok.inj ((run_of_stopped hgoes 0).symm.trans h)
          exact ⟨.refl, hgoes⟩
      | true =>
          rw [run, if_neg (by simp [hgoes])] at h
          cases h
  | succ fuel ih =>
      cases hgoes : goesOn state with
      | false =>
          obtain rfl := Except.ok.inj ((run_of_stopped hgoes _).symm.trans h)
          exact ⟨.refl, hgoes⟩
      | true =>
          cases hbody : body state with
          | error e => cases (run_of_error hgoes hbody fuel).symm.trans h
          | ok state' =>
              rw [run_of_pass hgoes hbody] at h
              obtain ⟨hreach, hstop⟩ := ih h
              exact ⟨.head ⟨hgoes, hbody⟩ hreach, hstop⟩

/-- A loop with a measure ends with fuel to spare, or its body fails. -/
theorem run_cases {I : σ → Prop} {μ : σ → ℕ}
    (hpass : ∀ {s s'}, I s → Pass goesOn body s s' → I s' ∧ μ s' < μ s)
    {fuel : ℕ} {state : σ} (hI : I state) (hfuel : μ state ≤ fuel)
    (hpos : ∀ {s}, I s → goesOn s = true → 0 < μ s) :
    (∃ final, run unending goesOn body fuel state = .ok final ∧ goesOn final = false ∧
        Reaches goesOn body state final) ∨
      ∃ last e, run unending goesOn body fuel state = .error e ∧
        Reaches goesOn body state last ∧ goesOn last = true ∧ body last = .error e := by
  induction fuel generalizing state with
  | zero =>
      cases hgoes : goesOn state with
      | false => exact .inl ⟨state, run_of_stopped hgoes 0, hgoes, .refl⟩
      | true =>
          have := hpos hI hgoes
          omega
  | succ fuel ih =>
      cases hgoes : goesOn state with
      | false => exact .inl ⟨state, run_of_stopped hgoes _, hgoes, .refl⟩
      | true =>
          cases hbody : body state with
          | error e => exact .inr ⟨state, e, run_of_error hgoes hbody fuel, .refl, hgoes, hbody⟩
          | ok state' =>
              have hstep : Pass goesOn body state state' := ⟨hgoes, hbody⟩
              obtain ⟨hI', hlt⟩ := hpass hI hstep
              rw [run_of_pass hgoes hbody]
              rcases ih hI' (by omega) with ⟨final, hrun, hstop, hreach⟩ |
                ⟨last, e, hrun, hreach, hlast, hfail⟩
              · exact .inl ⟨final, hrun, hstop, .head hstep hreach⟩
              · exact .inr ⟨last, e, hrun, .head hstep hreach, hlast, hfail⟩

/-- A loop that may go on for longer ends in the same state, if it does not go on from there. -/
lemma run_mono {goesOn' : σ → Bool} (hmono : ∀ {s}, goesOn s = true → goesOn' s = true)
    {fuel : ℕ} {state final : σ} (h : run unending goesOn body fuel state = .ok final)
    (hstop : goesOn' final = false) : run unending goesOn' body fuel state = .ok final := by
  induction fuel generalizing state with
  | zero =>
      cases hgoes : goesOn state with
      | false =>
          obtain rfl := Except.ok.inj ((run_of_stopped hgoes 0).symm.trans h)
          exact run_of_stopped hstop 0
      | true =>
          rw [run, if_neg (by simp [hgoes])] at h
          cases h
  | succ fuel ih =>
      cases hgoes : goesOn state with
      | false =>
          obtain rfl := Except.ok.inj ((run_of_stopped hgoes _).symm.trans h)
          exact run_of_stopped hstop _
      | true =>
          cases hbody : body state with
          | error e => cases (run_of_error hgoes hbody fuel).symm.trans h
          | ok state' =>
              rw [run_of_pass hgoes hbody] at h
              rw [run_of_pass (hmono hgoes) hbody]
              exact ih h

lemma Pass.deterministic {state s₁ s₂ : σ} (h₁ : Pass goesOn body state s₁)
    (h₂ : Pass goesOn body state s₂) : s₁ = s₂ := Except.ok.inj (h₁.2.symm.trans h₂.2)

/-- A loop goes through a state it reaches. -/
lemma reaches_or_reaches {state s₁ s₂ : σ} (h₁ : Reaches goesOn body state s₁)
    (h₂ : Reaches goesOn body state s₂) :
    Reaches goesOn body s₁ s₂ ∨ Reaches goesOn body s₂ s₁ := by
  induction h₁ using Relation.ReflTransGen.head_induction_on with
  | refl => exact .inl h₂
  | head hstep hrest ih =>
      rcases Relation.ReflTransGen.cases_head h₂ with rfl | ⟨s, hstep', hrest'⟩
      · exact .inr (.head hstep hrest)
      · obtain rfl := hstep.deterministic hstep'
        exact ih hrest'

/-- A loop that ends has not reached a state at which its body fails. -/
lemma body_ne_error {state final last : σ} {e : ε} (hfinal : Reaches goesOn body state final)
    (hstop : goesOn final = false) (hlast : Reaches goesOn body state last)
    (hgoes : goesOn last = true) : body last ≠ .error e := by
  intro hfail
  rcases reaches_or_reaches hlast hfinal with h | h
  · rcases Relation.ReflTransGen.cases_head h with rfl | ⟨s, hstep, -⟩
    · rw [hstop] at hgoes
      cases hgoes
    · cases hfail.symm.trans hstep.2
  · rcases Relation.ReflTransGen.cases_head h with rfl | ⟨s, hstep, -⟩
    · rw [hstop] at hgoes
      cases hgoes
    · rw [hstep.1] at hstop
      cases hstop

/-! ## Loops that a `break` ends -/

/-- What a pass of such a loop comes to. -/
inductive Next (σ β : Type)
  | again (state : σ)
  | done (value : β)

variable {β : Type}

/-- `while True`, or `for _ in range(fuel)` with an `else` clause that raises. -/
def forever (unending : ε) (body : σ → Except ε (Next σ β)) : ℕ → σ → Except ε β
  | 0, _ => .error unending
  | fuel + 1, state => do
      match ← body state with
      | .again state' => forever unending body fuel state'
      | .done value => return value

section forever

variable {body : σ → Except ε (Next σ β)}

/-- What every pass preserves holds when the loop ends. -/
lemma forever_ok {I : σ → Prop} {Q : β → Prop}
    (hagain : ∀ {s s'}, I s → body s = .ok (.again s') → I s')
    (hdone : ∀ {s value}, I s → body s = .ok (.done value) → Q value) {fuel : ℕ} {state : σ}
    {value : β} (hI : I state) (h : forever unending body fuel state = .ok value) : Q value := by
  induction fuel generalizing state with
  | zero => cases h
  | succ fuel ih =>
      obtain ⟨next, hnext, hrest⟩ := Fallible.bind_eq_ok.1 h
      cases next with
      | again state' => exact ih (hagain hI hnext) hrest
      | done value' =>
          cases hrest
          exact hdone hI hnext

open Fallible

/-- The loop raises what its body raises, or that it went on for too long. -/
lemma raises_forever {P : ε → Prop} (hunending : P unending) (hbody : ∀ s, Raises P (body s))
    (fuel : ℕ) (state : σ) : Raises P (forever unending body fuel state) := by
  induction fuel generalizing state with
  | zero => exact .error hunending
  | succ fuel ih =>
      refine .bind (hbody state) fun next _ => ?_
      cases next with
      | again state' => exact ih state'
      | done value => exact .ok value

/-- A loop with a measure does not go on for too long. -/
lemma raises_forever_of_measure {P : ε → Prop} {μ : σ → ℕ} (hbody : ∀ s, Raises P (body s))
    (hagain : ∀ {s s'}, body s = .ok (.again s') → μ s' < μ s) {fuel : ℕ} {state : σ}
    (hfuel : μ state < fuel) : Raises P (forever unending body fuel state) := by
  induction fuel generalizing state with
  | zero => omega
  | succ fuel ih =>
      refine .bind (hbody state) fun next hnext => ?_
      cases next with
      | again state' =>
          have hlt := hagain hnext
          exact ih (by omega)
      | done value => exact .ok value

lemma forever_of_again {state state' : σ} (h : body state = .ok (.again state')) (fuel : ℕ) :
    forever unending body (fuel + 1) state = forever unending body fuel state' := by
  rw [forever, h]
  rfl

lemma forever_of_done {state : σ} {value : β} (h : body state = .ok (.done value)) (fuel : ℕ) :
    forever unending body (fuel + 1) state = .ok value := by
  rw [forever, h]
  rfl

lemma forever_of_error {state : σ} {e : ε} (h : body state = .error e) (fuel : ℕ) :
    forever unending body (fuel + 1) state = .error e := by
  rw [forever, h]
  rfl

/-- A loop with a pass for each of these items. -/
lemma forever_items {ι : Type} {next : σ → ι → σ} {I : σ → List ι → Prop}
    (hpass : ∀ {s item rest}, I s (item :: rest) →
      body s = .ok (.again (next s item)) ∧ I (next s item) rest) {items : List ι} {state : σ}
    (h : I state items) (fuel : ℕ) :
    forever unending body (items.length + fuel) state =
        forever unending body fuel (items.foldl next state) ∧
      I (items.foldl next state) [] := by
  induction items generalizing state with
  | nil => exact ⟨by rw [List.length_nil, Nat.zero_add]; rfl, h⟩
  | cons item items ih =>
      obtain ⟨hbody, hnext⟩ := hpass h
      obtain ⟨hrest, hend⟩ := ih hnext
      rw [List.length_cons, Nat.add_right_comm, forever_of_again hbody, hrest]
      exact ⟨rfl, hend⟩

/-- A loop that is to have a pass for each of these items comes to its end exactly when no item
makes it fail and there are enough passes for all of them. -/
lemma forever_items_iff {ι : Type} {G : ι → Prop} {f : σ → ι → σ} {r : σ → β}
    {I : σ → List ι → Prop}
    (hgood : ∀ {s item rest}, I s (item :: rest) → G item →
      body s = .ok (.again (f s item)) ∧ I (f s item) rest)
    (hbad : ∀ {s item rest}, I s (item :: rest) → ¬G item → ∃ e, body s = .error e)
    (hend : ∀ {s}, I s [] → body s = .ok (.done (r s))) {items : List ι} {state : σ}
    (h : I state items) {fuel : ℕ} {value : β} :
    forever unending body fuel state = .ok value ↔
      (∀ item ∈ items, G item) ∧ items.length < fuel ∧
        value = r (items.foldl f state) := by
  induction items generalizing state fuel with
  | nil =>
      rcases fuel with _ | fuel
      · refine iff_of_false (fun h => ?_) fun h => absurd h.2.1 (Nat.not_lt_zero _)
        cases h
      · rw [forever_of_done (hend h)]
        constructor
        · intro hvalue
          exact ⟨by simp, Nat.succ_pos _, (Except.ok.inj hvalue).symm⟩
        · rintro ⟨-, -, rfl⟩
          rfl
  | cons item items ih =>
      rcases fuel with _ | fuel
      · refine iff_of_false (fun h => ?_) fun h => absurd h.2.1 (Nat.not_lt_zero _)
        cases h
      · by_cases hitem : G item
        · obtain ⟨hbody, hnext⟩ := hgood h hitem
          rw [forever_of_again hbody, ih hnext, List.forall_mem_cons, List.length_cons,
            Nat.succ_lt_succ_iff, List.foldl_cons]
          simp only [hitem, true_and]
        · obtain ⟨e, hbody⟩ := hbad h hitem
          rw [forever_of_error hbody]
          refine iff_of_false (fun h => ?_) fun h => hitem (h.1 item List.mem_cons_self)
          cases h

/-- A loop whose passes succeed wherever those of another do, with at least as much fuel. -/
lemma forever_extends {body' : σ → Except ε (Next σ β)}
    (hbody : ∀ s, Extends (body s) (body' s)) {fuel fuel' : ℕ} (hfuel : fuel ≤ fuel') (state : σ) :
    Extends (forever unending body fuel state) (forever unending body' fuel' state) := by
  induction fuel generalizing fuel' state with
  | zero => exact .error _ _
  | succ fuel ih =>
      obtain ⟨fuel', rfl⟩ : ∃ more, fuel' = more + 1 :=
        Nat.exists_eq_succ_of_ne_zero (by omega)
      refine .bind (hbody state) fun next _ => ?_
      cases next with
      | again state' => exact ih (by omega) state'
      | done value => exact .refl _

/-- A pass that appends an item and moves the cursor on by a step, or that ends with what there
is. -/
def Appends {α : Type} (step limit : ℕ) (P : ℕ → α → Prop) (state : ℕ × List α) :
    Next (ℕ × List α) (List α) → Prop
  | .again state' => ∃ item, state' = (state.1 + step, state.2 ++ [item]) ∧ P state.1 item
  | .done items => items = state.2 ∧ state.1 + step ≤ limit

/-- The items that such passes have appended, and the place of each. -/
lemma yields_appended {α : Type} {body : ℕ × List α → Except ε (Next (ℕ × List α) (List α))}
    {step limit : ℕ} {P : ℕ → α → Prop} (hbody : ∀ s, Yields (Appends step limit P s) (body s))
    (fuel start : ℕ) :
    Yields (fun items => start + (items.length + 1) * step ≤ limit ∧
        ∀ index item, items[index]? = some item → P (start + index * step) item)
      (forever unending body fuel (start, [])) := by
  intro items h
  refine forever_ok (I := fun s => s.1 = start + s.2.length * step ∧
    ∀ index item, s.2[index]? = some item → P (start + index * step) item)
    (Q := fun items => start + (items.length + 1) * step ≤ limit ∧
      ∀ index item, items[index]? = some item → P (start + index * step) item) ?_ ?_
    ⟨by simp, by simp⟩ h
  · intro s s' hs hstep
    obtain ⟨hcursor, hfound⟩ := hs
    obtain ⟨item, rfl, hitem⟩ := hbody _ _ hstep
    refine ⟨?_, fun index other hother => ?_⟩
    · rw [List.length_append, List.length_singleton, Nat.succ_mul, ← Nat.add_assoc, hcursor]
    · rw [List.getElem?_append] at hother
      split at hother
      · exact hfound index other hother
      · next hindex =>
          obtain ⟨hlt, rfl⟩ := List.getElem?_eq_some_iff.1 hother
          obtain rfl : index = s.2.length := by
            rw [List.length_singleton] at hlt
            omega
          rw [← hcursor]
          simpa using hitem
  · intro s value hs hstep
    obtain ⟨hcursor, hfound⟩ := hs
    obtain ⟨rfl, hlimit⟩ := hbody _ _ hstep
    refine ⟨?_, hfound⟩
    rw [Nat.succ_mul, ← Nat.add_assoc, ← hcursor]
    exact hlimit

end forever

end Loop
