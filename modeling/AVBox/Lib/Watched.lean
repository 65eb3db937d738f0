import AVBox.Lib.Loop
import AVBox.Lib.Fallible

/-!
# Watched computations

A computation that may fail, together with the events on its way (`Watched`).  The events up to a
failure are kept.  Erasing the events (`result`) takes the watched operations to the plain ones, so
a program written twice is the same program, and `Sees` says of what kind every event is.
-/

/-- The events of a computation, and its outcome. -/
structure Watched (ι ε α : Type) where
  events : List ι
  result : Except ε α

namespace Watched

open Fallible Loop

variable {ι ε α β σ : Type}

/-- A computation without events. -/
def lift (x : Except ε α) : Watched ι ε α := ⟨[], x⟩

/-- A number of events. -/
def notes (events : List ι) : Watched ι ε Unit := ⟨events, .ok ()⟩

instance : Monad (Watched ι ε) where
  pure a := ⟨[], .ok a⟩
  bind x f :=
    match x.result with
    | .ok a => ⟨x.events ++ (f a).events, (f a).result⟩
    | .error e => ⟨x.events, .error e⟩

lemma bind_def (x : Watched ι ε α) (f : α → Watched ι ε β) :
    x >>= f = match x.result with
      | .ok a => ⟨x.events ++ (f a).events, (f a).result⟩
      | .error e => ⟨x.events, .error e⟩ := rfl

lemma bind_assoc_watched {γ : Type} (x : Watched ι ε α) (f : α → Watched ι ε β)
    (g : β → Watched ι ε γ) : x >>= f >>= g = x >>= fun a => f a >>= g := by
  obtain ⟨events, _ | a⟩ := x
  · rfl
  · simp only [bind_def]
    cases (f a).result with
    | error e => rfl
    | ok b => simp only [List.append_assoc]

instance : LawfulMonad (Watched ι ε) :=
  .mk' _
    (fun x => by
      obtain ⟨events, _ | a⟩ := x
      · rfl
      · exact congrArg (Watched.mk · _) (List.append_nil events))
    (fun _ _ => rfl) bind_assoc_watched

/-! ## The outcome -/

@[simp] lemma result_lift (x : Except ε α) : (lift x : Watched ι ε α).result = x := rfl

@[simp] lemma result_notes (events : List ι) :
    (notes events : Watched ι ε Unit).result = .ok () := rfl

@[simp] lemma result_pure (a : α) : (pure a : Watched ι ε α).result = .ok a := rfl

@[simp] lemma result_bind (x : Watched ι ε α) (f : α → Watched ι ε β) :
    (x >>= f).result = x.result >>= fun a => (f a).result := by
  obtain ⟨events, _ | a⟩ := x <;> rfl

@[simp] lemma result_ite {c : Prop} [Decidable c] (x y : Watched ι ε α) :
    (if c then x else y).result = if c then x.result else y.result := by
  split <;> rfl

lemma result_mapM (f : α → Watched ι ε β) (items : List α) :
    (items.mapM f).result = items.mapM fun item => (f item).result := by
  induction items with
  | nil => rfl
  | cons item items ih =>
      rw [List.mapM_cons, List.mapM_cons, result_bind]
      refine congrArg (_ >>= ·) (funext fun value => ?_)
      rw [result_bind, ih]
      rfl

/-- `Loop.forever` with events. -/
def forever (unending : ε) (body : σ → Watched ι ε (Next σ β)) : ℕ → σ → Watched ι ε β
  | 0, _ => lift (.error unending)
  | fuel + 1, state => do
      match ← body state with
      | .again state' => forever unending body fuel state'
      | .done value => return value

lemma result_forever {unending : ε} (body : σ → Watched ι ε (Next σ β)) (fuel : ℕ) (state : σ) :
    (forever unending body fuel state).result =
      Loop.forever unending (fun s => (body s).result) fuel state := by
  induction fuel generalizing state with
  | zero => rfl
  | succ fuel ih =>
      rw [forever, Loop.forever, result_bind]
      refine congrArg (_ >>= ·) (funext fun next => ?_)
      cases next with
      | again state' => exact ih state'
      | done value => rfl

/-! ## The events -/

/-- Every event is of a kind. -/
def Sees (P : ι → Prop) (x : Watched ι ε α) : Prop := ∀ event ∈ x.events, P event

section Sees

variable {P : ι → Prop}

lemma Sees.lift (x : Except ε α) : Sees P (lift x : Watched ι ε α) := by
  intro event h
  cases h

lemma Sees.pure (a : α) : Sees P (pure a : Watched ι ε α) := by
  intro event h
  cases h

lemma Sees.notes {events : List ι} (h : ∀ event ∈ events, P event) :
    Sees P (notes events : Watched ι ε Unit) := h

lemma Sees.bind {x : Watched ι ε α} {f : α → Watched ι ε β} (hx : Sees P x)
    (hf : ∀ a, x.result = .ok a → Sees P (f a)) : Sees P (x >>= f) := by
  obtain ⟨events, _ | a⟩ := x
  · exact hx
  · intro event hmem
    rcases List.mem_append.1 hmem with hevent | hevent
    exacts [hx event hevent, hf a rfl event hevent]

lemma Sees.ite {c : Prop} [Decidable c] {x y : Watched ι ε α} (hx : c → Sees P x)
    (hy : ¬c → Sees P y) : Sees P (if c then x else y) := by
  split
  · next h => exact hx h
  · next h => exact hy h

lemma Sees.mapM {f : α → Watched ι ε β} {items : List α} (h : ∀ item ∈ items, Sees P (f item)) :
    Sees P (items.mapM f) := by
  induction items with
  | nil => exact .pure []
  | cons item items ih =>
      rw [List.mapM_cons]
      refine .bind (h item List.mem_cons_self) fun value _ => ?_
      refine .bind (ih fun other hother => h other (List.mem_cons_of_mem _ hother)) fun rest _ => ?_
      exact .pure _

/-- The loop rule: `I` is what the passes of the body keep. -/
lemma Sees.forever {unending : ε} {body : σ → Watched ι ε (Next σ β)} {I : σ → Prop}
    (hbody : ∀ s, I s → Sees P (body s))
    (hkeep : ∀ s s', I s → (body s).result = .ok (.again s') → I s') (fuel : ℕ) {state : σ}
    (hstate : I state) : Sees P (forever unending body fuel state) := by
  induction fuel generalizing state with
  | zero => exact .lift _
  | succ fuel ih =>
      refine .bind (hbody state hstate) fun next hnext => ?_
      cases next with
      | again state' => exact ih (hkeep state state' hstate hnext)
      | done value => exact .pure value

end Sees

end Watched
