import Mathlib.Algebra.Order.Ring.Nat
import Mathlib.Data.List.Forall2

/-!
# Fallible computations

Inversion for `Except`: what a computation that succeeds has gone through.
-/

namespace Fallible

variable {ε α β : Type}

lemma bind_eq_ok {x : Except ε α} {f : α → Except ε β} {b : β} :
    (x >>= f) = .ok b ↔ ∃ a, x = .ok a ∧ f a = .ok b := by
  cases x with
  | ok a =>
      constructor
      · exact fun h => ⟨a, rfl, h⟩
      · rintro ⟨a', ha, h⟩
        obtain rfl := Except.ok.inj ha
        exact h
  | error e =>
      constructor
      · intro h
        cases h
      · rintro ⟨a', ha, -⟩
        cases ha

lemma ok_bind (a : α) (f : α → Except ε β) : ((.ok a : Except ε α) >>= f) = f a := rfl

/-- A traversal succeeds exactly when it succeeds at each element. -/
lemma mapM_eq_ok_iff {f : α → Except ε β} {items : List α} {values : List β} :
    items.mapM f = .ok values ↔
      List.Forall₂ (fun item value => f item = .ok value) items values := by
  induction items generalizing values with
  | nil =>
      rw [List.mapM_nil]
      constructor
      · intro h
        obtain rfl := Except.ok.inj h
        exact .nil
      · intro h
        cases h
        rfl
  | cons item items ih =>
      rw [List.mapM_cons]
      constructor
      · intro h
        obtain ⟨value, hvalue, hrest⟩ := bind_eq_ok.1 h
        obtain ⟨rest, hmap, hcons⟩ := bind_eq_ok.1 hrest
        obtain rfl := Except.ok.inj hcons
        exact .cons hvalue (ih.1 hmap)
      · intro h
        cases h with
        | cons hvalue hrest =>
            exact bind_eq_ok.2 ⟨_, hvalue, bind_eq_ok.2 ⟨_, ih.2 hrest, rfl⟩⟩

/-- A loop without a value. -/
lemma forM_eq_ok_iff {f : α → Except ε Unit} {items : List α} :
    items.forM f = .ok ⟨⟩ ↔ ∀ item ∈ items, f item = .ok ⟨⟩ := by
  induction items with
  | nil => exact iff_of_true rfl fun item hitem => absurd hitem List.not_mem_nil
  | cons item items ih =>
      rw [List.forall_mem_cons, ← ih]
      refine (bind_eq_ok (x := f item) (f := fun _ => items.forM f)).trans ?_
      exact ⟨fun ⟨⟨⟩, hfirst, hrest⟩ => ⟨hfirst, hrest⟩, fun h => ⟨⟨⟩, h⟩⟩

lemma exists_of_mem_mapM {f : α → Except ε β} {items : List α} {values : List β}
    (h : items.mapM f = .ok values) {value : β} (hvalue : value ∈ values) :
    ∃ item ∈ items, f item = .ok value := by
  have hall := mapM_eq_ok_iff.1 h
  clear h
  induction hall with
  | nil => simp at hvalue
  | cons hfirst _ ih =>
      rcases List.mem_cons.1 hvalue with rfl | hmem
      · exact ⟨_, List.mem_cons_self, hfirst⟩
      · obtain ⟨item, hitem, hok⟩ := ih hmem
        exact ⟨item, List.mem_cons_of_mem _ hitem, hok⟩

lemma exists_value_of_mem {f : α → Except ε β} {items : List α} {values : List β}
    (h : items.mapM f = .ok values) {item : α} (hitem : item ∈ items) :
    ∃ value ∈ values, f item = .ok value := by
  have hall := mapM_eq_ok_iff.1 h
  clear h
  induction hall with
  | nil => simp at hitem
  | cons hfirst _ ih =>
      rcases List.mem_cons.1 hitem with rfl | hmem
      · exact ⟨_, List.mem_cons_self, hfirst⟩
      · obtain ⟨value, hvalue, hok⟩ := ih hmem
        exact ⟨value, List.mem_cons_of_mem _ hvalue, hok⟩

/-- A traversal succeeds if each element does. -/
lemma exists_mapM_eq_ok {f : α → Except ε β} {items : List α}
    (h : ∀ item ∈ items, ∃ value, f item = .ok value) : ∃ values, items.mapM f = .ok values := by
  induction items with
  | nil => exact ⟨[], rfl⟩
  | cons item items ih =>
      obtain ⟨value, hvalue⟩ := h item List.mem_cons_self
      obtain ⟨values, hvalues⟩ := ih fun other hother => h other (List.mem_cons_of_mem _ hother)
      refine ⟨value :: values, ?_⟩
      rw [List.mapM_cons, hvalue, hvalues]
      rfl

/-- A traversal whose values are known where it succeeds. -/
lemma mapM_eq_ok_iff_map {f : α → Except ε β} {g : α → β} {items : List α}
    (hf : ∀ item ∈ items, ∀ value, f item = .ok value → value = g item) {values : List β} :
    items.mapM f = .ok values ↔ values = items.map g ∧ ∀ item ∈ items, f item = .ok (g item) := by
  rw [mapM_eq_ok_iff]
  constructor
  · intro h
    induction h with
    | nil => exact ⟨rfl, by simp⟩
    | cons hfirst _ ih =>
        obtain ⟨rfl, hrest⟩ := ih fun other hother => hf other (List.mem_cons_of_mem _ hother)
        obtain rfl := hf _ List.mem_cons_self _ hfirst
        exact ⟨rfl, List.forall_mem_cons.2 ⟨hfirst, hrest⟩⟩
  · rintro ⟨rfl, h⟩
    exact List.forall₂_map_right_iff.2 (List.forall₂_same.2 h)

/-! ## What a computation may return -/

/-- Every value of the computation is of a kind. -/
def Yields (Q : α → Prop) (x : Except ε α) : Prop := ∀ a, x = .ok a → Q a

section Yields

variable {Q : α → Prop}

lemma Yields.ok {a : α} (h : Q a) : Yields Q (.ok a : Except ε α) := by
  intro a' h'
  cases h'
  exact h

lemma Yields.error (e : ε) : Yields Q (.error e : Except ε α) := by
  intro a h
  cases h

lemma Yields.bind {x : Except ε β} {f : β → Except ε α}
    (h : ∀ b, x = .ok b → Yields Q (f b)) : Yields Q (x >>= f) := by
  intro a ha
  obtain ⟨b, hb, hrest⟩ := bind_eq_ok.1 ha
  exact h b hb a hrest

lemma Yields.ite {c : Prop} [Decidable c] {x y : Except ε α} (hx : c → Yields Q x)
    (hy : ¬c → Yields Q y) : Yields Q (if c then x else y) := by
  split
  · next h => exact hx h
  · next h => exact hy h

/-- What the items of a traversal add to a measure. -/
lemma yields_foldlM {f : β → α → Except ε β} (μ : β → ℕ) (cost : α → ℕ) {items : List α}
    (hf : ∀ state, ∀ item ∈ items,
      Yields (fun state' => μ state' ≤ μ state + cost item) (f state item)) (state : β) :
    Yields (fun final => μ final ≤ μ state + (items.map cost).sum) (items.foldlM f state) := by
  induction items generalizing state with
  | nil => exact .ok (Nat.le_refl _)
  | cons item items ih =>
      rw [List.foldlM_cons]
      refine .bind fun state' hstate' final hfinal => ?_
      have hfirst := hf state item List.mem_cons_self state' hstate'
      have hrest := ih (fun s other hother => hf s other (List.mem_cons_of_mem _ hother)) state'
        final hfinal
      rw [List.map_cons, List.sum_cons]
      omega

end Yields

/-! ## What a computation may raise -/

/-- Every exception of the computation is of a kind. -/
def Raises (P : ε → Prop) (x : Except ε α) : Prop := ∀ e, x = .error e → P e

section Raises

variable {P : ε → Prop}

lemma Raises.ok (a : α) : Raises P (.ok a : Except ε α) := by
  intro e h
  cases h

lemma Raises.error {e : ε} (h : P e) : Raises P (.error e : Except ε α) := by
  intro e' h'
  cases h'
  exact h

lemma Raises.bind {x : Except ε α} {f : α → Except ε β} (hx : Raises P x)
    (hf : ∀ a, x = .ok a → Raises P (f a)) : Raises P (x >>= f) := by
  intro e h
  cases x with
  | ok a => exact hf a rfl e h
  | error e' =>
      cases h
      exact hx _ rfl

lemma not_raises_bind {x : Except ε α} {f : α → Except ε β} (hx : ¬Raises P x) :
    ¬Raises P (x >>= f) := by
  intro h
  refine hx fun e he => h e ?_
  rw [he]
  rfl

lemma Raises.ite {c : Prop} [Decidable c] {x y : Except ε α} (hx : c → Raises P x)
    (hy : ¬c → Raises P y) : Raises P (if c then x else y) := by
  split
  · next h => exact hx h
  · next h => exact hy h

lemma Raises.mapM {f : α → Except ε β} {items : List α} (h : ∀ item ∈ items, Raises P (f item)) :
    Raises P (items.mapM f) := by
  induction items with
  | nil => exact .ok []
  | cons item items ih =>
      rw [List.mapM_cons]
      refine .bind (h item List.mem_cons_self) fun value _ => ?_
      refine .bind (ih fun other hother => h other (List.mem_cons_of_mem _ hother)) fun rest _ => ?_
      exact .ok _

lemma Raises.foldlM {f : β → α → Except ε β} {items : List α}
    (h : ∀ state, ∀ item ∈ items, Raises P (f state item)) (state : β) :
    Raises P (items.foldlM f state) := by
  induction items generalizing state with
  | nil => exact .ok state
  | cons item items ih =>
      rw [List.foldlM_cons]
      refine .bind (h state item List.mem_cons_self) fun state' _ => ?_
      exact ih (fun s other hother => h s other (List.mem_cons_of_mem _ hother)) state'

/-! ## The item at which a traversal fails -/

/-- An item of one kind is met after items of the other. -/
def Meets (Sound Cut : α → Prop) (items : List α) : Prop :=
  ∃ before item after, items = before ++ item :: after ∧ (∀ other ∈ before, Sound other) ∧ Cut item

lemma meets_nil {Sound Cut : α → Prop} : ¬Meets Sound Cut [] := by
  rintro ⟨before, item, after, hsplit, -⟩
  simp at hsplit

lemma meets_cons {Sound Cut : α → Prop} {item : α} {items : List α} :
    Meets Sound Cut (item :: items) ↔ Cut item ∨ Sound item ∧ Meets Sound Cut items := by
  constructor
  · rintro ⟨before, cut, after, hsplit, hbefore, hcut⟩
    cases before with
    | nil =>
        obtain ⟨rfl, -⟩ := List.cons.inj hsplit
        exact .inl hcut
    | cons first before =>
        obtain ⟨rfl, hrest⟩ := List.cons.inj hsplit
        have hrest' := fun other hother => hbefore other (List.mem_cons_of_mem _ hother)
        exact .inr ⟨hbefore _ List.mem_cons_self, before, cut, after, hrest, hrest', hcut⟩
  · rintro (hcut | ⟨hsound, before, cut, after, rfl, hbefore, hcut⟩)
    · exact ⟨[], item, items, rfl, by simp, hcut⟩
    · exact ⟨item :: before, cut, after, rfl, List.forall_mem_cons.2 ⟨hsound, hbefore⟩, hcut⟩

/-- A traversal fails unexpectedly exactly when an item that does so comes after items that are
passed. -/
theorem not_raises_foldlM_iff {f : β → α → Except ε β} {Sound Cut : α → Prop} {items : List α}
    (hsound : ∀ state, ∀ item ∈ items, (∃ state', f state item = .ok state') ↔ Sound item)
    (hcut : ∀ state, ∀ item ∈ items, ¬Raises P (f state item) ↔ Cut item) (state : β) :
    ¬Raises P (items.foldlM f state) ↔ Meets Sound Cut items := by
  induction items generalizing state with
  | nil =>
      refine iff_of_false (fun h => h (.ok state)) meets_nil
  | cons item items ih =>
      have ih := ih (fun s other hother => hsound s other (List.mem_cons_of_mem _ hother))
        fun s other hother => hcut s other (List.mem_cons_of_mem _ hother)
      rw [meets_cons, ← hcut state item List.mem_cons_self, ← hsound state item List.mem_cons_self,
        List.foldlM_cons]
      cases hitem : f state item with
      | ok state' =>
          have hraises : Raises P (.ok state' : Except ε β) := .ok state'
          rw [show ((.ok state' : Except ε β) >>= fun s => items.foldlM f s) =
            items.foldlM f state' from rfl, ih state']
          simp [hraises]
      | error e =>
          have hnone : ¬∃ state', (.error e : Except ε β) = .ok state' := by simp
          simp only [hnone, false_and, or_false]
          rfl

/-- A traversal succeeds exactly when every item is passed. -/
theorem foldlM_ok_iff {f : β → α → Except ε β} {Sound : α → Prop} {items : List α}
    (hsound : ∀ state, ∀ item ∈ items, (∃ state', f state item = .ok state') ↔ Sound item)
    (state : β) : (∃ state', items.foldlM f state = .ok state') ↔ ∀ item ∈ items, Sound item := by
  induction items generalizing state with
  | nil => exact iff_of_true ⟨state, rfl⟩ (by simp)
  | cons item items ih =>
      have ih := ih fun s other hother => hsound s other (List.mem_cons_of_mem _ hother)
      rw [List.forall_mem_cons, ← hsound state item List.mem_cons_self, List.foldlM_cons]
      constructor
      · rintro ⟨final, h⟩
        obtain ⟨state', hitem, hrest⟩ := bind_eq_ok.1 h
        exact ⟨⟨state', hitem⟩, (ih state').1 ⟨final, hrest⟩⟩
      · rintro ⟨⟨state', hitem⟩, hrest⟩
        obtain ⟨final, hfinal⟩ := (ih state').2 hrest
        exact ⟨final, bind_eq_ok.2 ⟨state', hitem, hfinal⟩⟩

end Raises

/-! ## Computations that agree where one succeeds -/

/-- The other computation succeeds wherever this one does, with the same value. -/
def Extends (x y : Except ε α) : Prop := ∀ a, x = .ok a → y = .ok a

lemma Extends.refl (x : Except ε α) : Extends x x := fun _ h => h

lemma Extends.error (e : ε) (y : Except ε α) : Extends (.error e) y := by
  intro a h
  cases h

lemma Extends.bind {x y : Except ε α} {f g : α → Except ε β} (hx : Extends x y)
    (hf : ∀ a, x = .ok a → Extends (f a) (g a)) : Extends (x >>= f) (y >>= g) := by
  intro b hb
  obtain ⟨a, ha, hrest⟩ := bind_eq_ok.1 hb
  exact bind_eq_ok.2 ⟨a, hx a ha, hf a ha b hrest⟩

lemma Extends.ite {c : Prop} [Decidable c] {x y x' y' : Except ε α} (hx : c → Extends x x')
    (hy : ¬c → Extends y y') : Extends (if c then x else y) (if c then x' else y') := by
  split
  · next h => exact hx h
  · next h => exact hy h

end Fallible
