import Mathlib.Logic.Basic
import Mathlib.Data.List.Basic

/-!
# Programs that mutate a state and may raise

`EStateM ε σ α` keeps the state of a computation that raises, which is how an imperative
language with mutable objects and exceptions behaves: what was written before the exception
stays written.  This module is the proof layer for such programs, over arbitrary state and
exception types.

* `Triple P x Q E` is the Hoare triple with one postcondition for each way `x` can end.
* `Moves R x` relates the state before a run to the state after it, however it ends.
* `forEach` is a loop over a list whose body can `break` (`Flow.stop`).
* `zoom` runs a program on one component of a larger state.
-/

namespace Program

variable {ε σ τ α β : Type}

/-! ## How a run ends -/

/-- The state a run leaves behind, whether it returns or raises. -/
def final (x : EStateM ε σ α) (s : σ) : σ :=
  match x s with
  | .ok _ s' => s'
  | .error _ s' => s'

/-- The exception a run ends in, if any. -/
def raised (x : EStateM ε σ α) (s : σ) : Option ε :=
  match x s with
  | .ok _ _ => none
  | .error e _ => some e

/-- The run returns rather than raises. -/
def Returns (x : EStateM ε σ α) (s : σ) : Prop := raised x s = none

instance (x : EStateM ε σ α) (s : σ) : Decidable (Returns x s) :=
  inferInstanceAs (Decidable (raised x s = none))

lemma final_of_ok {x : EStateM ε σ α} {s s' : σ} {a : α} (h : x s = .ok a s') :
    final x s = s' := by simp [final, h]

lemma final_of_error {x : EStateM ε σ α} {s s' : σ} {e : ε} (h : x s = .error e s') :
    final x s = s' := by simp [final, h]

lemma raised_of_ok {x : EStateM ε σ α} {s s' : σ} {a : α} (h : x s = .ok a s') :
    raised x s = none := by simp [raised, h]

/-! ## Running the basic programs -/

@[simp] lemma pure_apply (a : α) (s : σ) : (pure a : EStateM ε σ α) s = .ok a s := rfl

@[simp] lemma get_apply (s : σ) : (get : EStateM ε σ σ) s = .ok s s := rfl

@[simp] lemma set_apply (s t : σ) : (set t : EStateM ε σ PUnit) s = .ok ⟨⟩ t := rfl

@[simp] lemma modify_apply (f : σ → σ) (s : σ) :
    (modify f : EStateM ε σ PUnit) s = .ok ⟨⟩ (f s) := rfl

@[simp] lemma throw_apply (e : ε) (s : σ) : (throw e : EStateM ε σ α) s = .error e s := rfl

lemma bind_apply (x : EStateM ε σ α) (f : α → EStateM ε σ β) (s : σ) :
    (x >>= f) s = match x s with
      | .ok a s' => f a s'
      | .error e s' => .error e s' := rfl

lemma bind_of_ok {x : EStateM ε σ α} {s s' : σ} {a : α} (h : x s = .ok a s')
    (f : α → EStateM ε σ β) : (x >>= f) s = f a s' := by rw [bind_apply, h]

lemma bind_of_error {x : EStateM ε σ α} {s s' : σ} {e : ε} (h : x s = .error e s')
    (f : α → EStateM ε σ β) : (x >>= f) s = .error e s' := by rw [bind_apply, h]

lemma final_bind_of_ok {x : EStateM ε σ α} {s s' : σ} {a : α} (h : x s = .ok a s')
    (f : α → EStateM ε σ β) : final (x >>= f) s = final (f a) s' := by
  rw [final, bind_of_ok h]
  rfl

lemma final_bind_of_error {x : EStateM ε σ α} {s s' : σ} {e : ε} (h : x s = .error e s')
    (f : α → EStateM ε σ β) : final (x >>= f) s = s' := by
  rw [final, bind_of_error h]

lemma bind_eq_ok {x : EStateM ε σ α} {f : α → EStateM ε σ β} {s s'' : σ} {b : β} :
    (x >>= f) s = .ok b s'' ↔ ∃ a s', x s = .ok a s' ∧ f a s' = .ok b s'' := by
  rw [bind_apply]
  constructor
  · intro h
    cases hx : x s with
    | ok a s' => exact ⟨a, s', rfl, by simpa [hx] using h⟩
    | error e s' => simp [hx] at h
  · rintro ⟨a, s', hx, hf⟩
    rw [hx]
    exact hf

lemma bind_eq_error {x : EStateM ε σ α} {f : α → EStateM ε σ β} {s s'' : σ} {e : ε} :
    (x >>= f) s = .error e s'' ↔
      x s = .error e s'' ∨ ∃ a s', x s = .ok a s' ∧ f a s' = .error e s'' := by
  rw [bind_apply]
  cases x s with
  | ok a s' => simp
  | error e' s' => simp

@[simp] lemma pure_bind_apply (a : α) (f : α → EStateM ε σ β) (s : σ) :
    ((pure a : EStateM ε σ α) >>= f) s = f a s := rfl

@[simp] lemma get_bind_apply (f : σ → EStateM ε σ β) (s : σ) :
    ((get : EStateM ε σ σ) >>= f) s = f s s := rfl

@[simp] lemma modify_bind_apply (g : σ → σ) (f : PUnit → EStateM ε σ β) (s : σ) :
    ((modify g : EStateM ε σ PUnit) >>= f) s = f ⟨⟩ (g s) := rfl

@[simp] lemma throw_bind_apply (e : ε) (f : α → EStateM ε σ β) (s : σ) :
    ((throw e : EStateM ε σ α) >>= f) s = .error e s := rfl

lemma map_apply (g : α → β) (x : EStateM ε σ α) (s : σ) :
    (g <$> x) s = match x s with
      | .ok a s' => .ok (g a) s'
      | .error e s' => .error e s' := rfl

@[simp] lemma map_get_apply (g : σ → β) (s : σ) :
    (g <$> (get : EStateM ε σ σ)) s = .ok (g s) s := rfl

@[simp] lemma map_modify_apply (g : PUnit → β) (f : σ → σ) (s : σ) :
    (g <$> (modify f : EStateM ε σ PUnit)) s = .ok (g ⟨⟩) (f s) := rfl

lemma returns_iff {x : EStateM ε σ α} {s : σ} : Returns x s ↔ ∃ a s', x s = .ok a s' := by
  unfold Returns raised
  cases x s <;> simp

lemma returns_of_ok {x : EStateM ε σ α} {s s' : σ} {a : α} (h : x s = .ok a s') :
    Returns x s := returns_iff.2 ⟨a, s', h⟩

lemma not_returns_iff {x : EStateM ε σ α} {s : σ} :
    ¬Returns x s ↔ ∃ e s', x s = .error e s' := by
  unfold Returns raised
  cases x s <;> simp

lemma returns_bind {x : EStateM ε σ α} {f : α → EStateM ε σ β} {s : σ} :
    Returns (x >>= f) s ↔ ∃ a s', x s = .ok a s' ∧ Returns (f a) s' := by
  simp only [returns_iff, bind_eq_ok]
  exact ⟨fun ⟨b, t, a, s', hx, hf⟩ => ⟨a, s', hx, b, t, hf⟩,
    fun ⟨a, s', hx, b, t, hf⟩ => ⟨b, t, a, s', hx, hf⟩⟩

/-- Lift a pure answer into a program: an error of the answer is raised. -/
def lift (r : Except ε α) : EStateM ε σ α :=
  match r with
  | .ok a => pure a
  | .error e => throw e

@[simp] lemma lift_ok (a : α) (s : σ) : (lift (.ok a) : EStateM ε σ α) s = .ok a s := rfl

@[simp] lemma lift_error (e : ε) (s : σ) :
    (lift (.error e) : EStateM ε σ α) s = .error e s := rfl

/-- Raise an exception when there is one to raise. -/
def raiseIf (e : Option ε) : EStateM ε σ Unit :=
  match e with
  | none => pure ()
  | some e => throw e

@[simp] lemma raiseIf_none (s : σ) : (raiseIf none : EStateM ε σ Unit) s = .ok () s := rfl

@[simp] lemma raiseIf_some (e : ε) (s : σ) :
    (raiseIf (some e) : EStateM ε σ Unit) s = .error e s := rfl

@[simp] lemma returns_pure (a : α) (s : σ) : Returns (pure a : EStateM ε σ α) s := rfl

@[simp] lemma returns_lift {r : Except ε α} {s : σ} :
    Returns (lift r : EStateM ε σ α) s ↔ ∃ a, r = .ok a := by
  cases r <;> simp [returns_iff]

@[simp] lemma returns_raiseIf {e : Option ε} {s : σ} :
    Returns (raiseIf e : EStateM ε σ Unit) s ↔ e = none := by
  cases e <;> simp [returns_iff]

lemma raiseIf_bind_eq_ok {e : Option ε} {f : Unit → EStateM ε σ β} {s s' : σ} {b : β} :
    (raiseIf e >>= f) s = .ok b s' ↔ e = none ∧ f () s = .ok b s' := by
  cases e <;> simp [bind_apply]

lemma tryCatch_apply (x : EStateM ε σ α) (handle : ε → EStateM ε σ α) (s : σ) :
    (tryCatch x handle) s = match x s with
      | .ok a s' => .ok a s'
      | .error e s' => handle e s' := by
  change EStateM.tryCatch x handle s = _
  simp only [EStateM.tryCatch]
  cases x s <;> rfl

lemma tryFinally_apply (x : EStateM ε σ α) (fin : EStateM ε σ β) (s : σ) :
    (tryFinally x fin) s = match x s with
      | .ok a s' => (match fin s' with
        | .ok _ s'' => .ok a s''
        | .error e s'' => .error e s'')
      | .error e s' => (match fin s' with
        | .ok _ s'' => .error e s''
        | .error e' s'' => .error e' s'') := by
  simp only [tryFinally, tryFinally', Functor.map, EStateM.map]
  cases x s with
  | ok a s' => simp only; cases fin s' <;> rfl
  | error e s' => simp only; cases fin s' <;> rfl

lemma returns_tryFinally {x : EStateM ε σ α} {fin : EStateM ε σ β} {s : σ} :
    Returns (tryFinally x fin) s ↔ Returns x s ∧ Returns fin (final x s) := by
  simp only [returns_iff, tryFinally_apply, final]
  cases x s with
  | ok a s' => simp only; cases fin s' <;> simp
  | error e s' => simp only; cases fin s' <;> simp

lemma final_tryFinally (x : EStateM ε σ α) (fin : EStateM ε σ β) (s : σ) :
    final (tryFinally x fin) s = final fin (final x s) := by
  simp only [final, tryFinally_apply]
  cases x s with
  | ok a s' => simp only; cases fin s' <;> rfl
  | error e s' => simp only; cases fin s' <;> rfl

/-! ## Hoare triples -/

/-- From a state with `P`, a run of `x` that returns meets `Q` and one that raises meets `E`. -/
def Triple (P : σ → Prop) (x : EStateM ε σ α) (Q : α → σ → Prop) (E : ε → σ → Prop) : Prop :=
  ∀ s, P s → match x s with
    | .ok a s' => Q a s'
    | .error e s' => E e s'

namespace Triple

variable {P : σ → Prop} {Q : α → σ → Prop} {E : ε → σ → Prop}

/-- Weaker postconditions. -/
lemma mono {Q' : α → σ → Prop} {E' : ε → σ → Prop} {x : EStateM ε σ α} (h : Triple P x Q E)
    (hok : ∀ a s, Q a s → Q' a s) (herror : ∀ e s, E e s → E' e s) : Triple P x Q' E' := by
  intro s hs
  have hrun := h s hs
  cases hcase : x s with
  | ok a t => exact hok a t (by simpa [hcase] using hrun)
  | error e t => exact herror e t (by simpa [hcase] using hrun)

/-- Sequencing: the postcondition of the first program is what the second starts from.  The second
one is only run on results of the first. -/
lemma bind_result {x : EStateM ε σ α} {f : α → EStateM ε σ β} {R : α → σ → Prop}
    {Q : β → σ → Prop} (hx : Triple P x R E)
    (hf : ∀ a, (∃ s t, x s = .ok a t) → Triple (R a) (f a) Q E) : Triple P (x >>= f) Q E := by
  intro s hs
  have hrun := hx s hs
  rw [bind_apply]
  cases hcase : x s with
  | ok a t => exact hf a ⟨s, t, hcase⟩ t (by simpa [hcase] using hrun)
  | error e t => simpa [hcase] using hrun

end Triple

/-! ## Relations -/

/-- `x` moves every state along `R`, however it ends. -/
def Moves (R : σ → σ → Prop) (x : EStateM ε σ α) : Prop := ∀ s, R s (final x s)

namespace Moves

variable {R : σ → σ → Prop}

lemma pure (hrefl : ∀ s, R s s) (a : α) : Moves R (Pure.pure a : EStateM ε σ α) := hrefl

lemma throw (hrefl : ∀ s, R s s) (e : ε) : Moves R (throw e : EStateM ε σ α) := hrefl

lemma get (hrefl : ∀ s, R s s) : Moves R (get : EStateM ε σ σ) := hrefl

lemma modify {f : σ → σ} (h : ∀ s, R s (f s)) : Moves R (modify f : EStateM ε σ PUnit) := h

lemma lift (hrefl : ∀ s, R s s) (r : Except ε α) :
    Moves R (Program.lift r : EStateM ε σ α) := by
  intro s
  cases r <;> exact hrefl s

lemma raiseIf (hrefl : ∀ s, R s s) (e : Option ε) :
    Moves R (Program.raiseIf e : EStateM ε σ Unit) := by
  intro s
  cases e <;> exact hrefl s

lemma bind (htrans : ∀ s t u, R s t → R t u → R s u) {x : EStateM ε σ α}
    {f : α → EStateM ε σ β} (hx : Moves R x) (hf : ∀ a, Moves R (f a)) :
    Moves R (x >>= f) := by
  intro s
  have hxs := hx s
  unfold final at hxs ⊢
  rw [bind_apply]
  cases hcase : x s with
  | ok a s' =>
      have hfs := hf a s'
      rw [hcase] at hxs
      exact htrans _ _ _ hxs hfs
  | error e s' => rwa [hcase] at hxs

lemma ite {c : Prop} [Decidable c] {x y : EStateM ε σ α} (hx : Moves R x) (hy : Moves R y) :
    Moves R (if c then x else y) := by
  split
  · exact hx
  · exact hy

lemma tryCatch (htrans : ∀ s t u, R s t → R t u → R s u) {x : EStateM ε σ α}
    {handle : ε → EStateM ε σ α} (hx : Moves R x) (hh : ∀ e, Moves R (handle e)) :
    Moves R (tryCatch x handle) := by
  intro s
  have hxs := hx s
  unfold final at hxs ⊢
  rw [tryCatch_apply]
  cases hcase : x s with
  | ok a s' => rwa [hcase] at hxs
  | error e s' =>
      rw [hcase] at hxs
      exact htrans _ _ _ hxs (hh e s')

lemma tryFinally (htrans : ∀ s t u, R s t → R t u → R s u) {x : EStateM ε σ α}
    {fin : EStateM ε σ β} (hx : Moves R x) (hfin : Moves R fin) :
    Moves R (tryFinally x fin) := by
  intro s
  have hxs := hx s
  unfold final at hxs ⊢
  rw [tryFinally_apply]
  cases hcase : x s with
  | ok a s' =>
      have hf := hfin s'
      rw [hcase] at hxs
      unfold final at hf
      cases hfcase : fin s' <;> simp only [hfcase] at hf ⊢ <;> exact htrans _ _ _ hxs hf
  | error e s' =>
      have hf := hfin s'
      rw [hcase] at hxs
      unfold final at hf
      cases hfcase : fin s' <;> simp only [hfcase] at hf ⊢ <;> exact htrans _ _ _ hxs hf

end Moves

/-! ## Two-ended relations -/

/-- A run of `x` relates its end to its start: by `R` when it returns, by `E e` when it raises
`e`. -/
def Ends (R : σ → σ → Prop) (E : ε → σ → σ → Prop) (x : EStateM ε σ α) : Prop :=
  ∀ s, match x s with
    | .ok _ t => R s t
    | .error e t => E e s t

/-- What makes a pair of relations compose along a run. -/
structure Composes (R : σ → σ → Prop) (E : ε → σ → σ → Prop) : Prop where
  refl : ∀ s, R s s
  trans : ∀ s t u, R s t → R t u → R s u
  raise : ∀ e s t u, R s t → E e t u → E e s u

namespace Ends

variable {R : σ → σ → Prop} {E : ε → σ → σ → Prop}

lemma of_ok {x : EStateM ε σ α} (h : Ends R E x) {s t : σ} {a : α} (hx : x s = .ok a t) :
    R s t := by simpa [hx] using h s

lemma of_error {x : EStateM ε σ α} (h : Ends R E x) {s t : σ} {e : ε} (hx : x s = .error e t) :
    E e s t := by simpa [hx] using h s

lemma pure (hc : Composes R E) (a : α) : Ends R E (Pure.pure a : EStateM ε σ α) := hc.refl

lemma modify {f : σ → σ} (h : ∀ s, R s (f s)) : Ends R E (modify f : EStateM ε σ PUnit) := h

/-- The second program is only asked about the values the first one can return. -/
lemma bind_result (hc : Composes R E) {x : EStateM ε σ α} {f : α → EStateM ε σ β}
    (hx : Ends R E x) (hf : ∀ a, (∃ s t, x s = .ok a t) → Ends R E (f a)) :
    Ends R E (x >>= f) := by
  intro s
  rw [bind_apply]
  cases hcase : x s with
  | ok a t =>
      have hfirst := hx.of_ok hcase
      have hsecond := hf a ⟨s, t, hcase⟩
      cases hrest : f a t with
      | ok b u => simpa [hrest] using hc.trans _ _ _ hfirst (hsecond.of_ok hrest)
      | error e u => simpa [hrest] using hc.raise _ _ _ _ hfirst (hsecond.of_error hrest)
  | error e t => exact hx.of_error hcase

lemma bind (hc : Composes R E) {x : EStateM ε σ α} {f : α → EStateM ε σ β} (hx : Ends R E x)
    (hf : ∀ a, Ends R E (f a)) : Ends R E (x >>= f) := bind_result hc hx fun a _ => hf a

lemma get_bind {f : σ → EStateM ε σ β} (h : ∀ t, Ends R E (f t)) : Ends R E (get >>= f) :=
  fun s => h s s

lemma ite {c : Prop} [Decidable c] {x y : EStateM ε σ α} (hx : c → Ends R E x)
    (hy : ¬c → Ends R E y) : Ends R E (if c then x else y) := by
  split
  · exact hx ‹_›
  · exact hy ‹_›

end Ends

/-! ## Loops -/

/-- What a loop body tells the loop: go on with the next item, or `break`. -/
inductive Flow
  | next
  | stop
  deriving DecidableEq, Repr

/-- `for item in items: body`, where the body may break out of the loop. -/
def forEach (body : α → EStateM ε σ Flow) : List α → EStateM ε σ Unit
  | [] => pure ()
  | item :: items => do
      match ← body item with
      | .next => forEach body items
      | .stop => pure ()

@[simp] lemma forEach_nil (body : α → EStateM ε σ Flow) (s : σ) :
    forEach body [] s = .ok () s := rfl

lemma forEach_cons_next {body : α → EStateM ε σ Flow} {item : α} {items : List α} {s s' : σ}
    (h : body item s = .ok .next s') :
    forEach body (item :: items) s = forEach body items s' := by
  rw [forEach, bind_of_ok h]

lemma Moves.forEach {R : σ → σ → Prop} (hrefl : ∀ s, R s s)
    (htrans : ∀ s t u, R s t → R t u → R s u) {body : α → EStateM ε σ Flow} {items : List α}
    (h : ∀ item ∈ items, Moves R (body item)) : Moves R (forEach body items) := by
  induction items with
  | nil => exact Moves.pure hrefl ()
  | cons item items ih =>
      refine Moves.bind htrans (h item (by simp)) fun flow => ?_
      cases flow with
      | next => exact ih fun i hi => h i (by simp [hi])
      | stop => exact Moves.pure hrefl ()

lemma Ends.forEach {R : σ → σ → Prop} {E : ε → σ → σ → Prop} (hc : Composes R E)
    {body : α → EStateM ε σ Flow} {items : List α} (h : ∀ item ∈ items, Ends R E (body item)) :
    Ends R E (forEach body items) := by
  induction items with
  | nil => exact Ends.pure hc ()
  | cons item items ih =>
      refine Ends.bind hc (h item (by simp)) fun flow => ?_
      cases flow with
      | next => exact ih fun i hi => h i (by simp [hi])
      | stop => exact Ends.pure hc ()

/-! ## Running on a component of the state -/

/-- Run a program on the component `view` selects, writing the component back with `put`. -/
def zoom (view : σ → τ) (put : τ → σ → σ) (x : EStateM ε τ α) : EStateM ε σ α := fun s =>
  match x (view s) with
  | .ok a t => .ok a (put t s)
  | .error e t => .error e (put t s)

lemma zoom_of_ok {view : σ → τ} {put : τ → σ → σ} {x : EStateM ε τ α} {s : σ} {a : α} {t : τ}
    (h : x (view s) = .ok a t) : zoom view put x s = .ok a (put t s) := by
  simp [zoom, h]

lemma Moves.zoom {R : σ → σ → Prop} {view : σ → τ} {put : τ → σ → σ} {x : EStateM ε τ α}
    (h : ∀ s, R s (put (Program.final x (view s)) s)) : Moves R (zoom view put x) := by
  intro s
  have hs := h s
  unfold Program.final Program.zoom at *
  cases hcase : x (view s) <;> simpa [hcase] using hs

end Program
