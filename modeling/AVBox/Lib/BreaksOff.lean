import AVBox.Lib.Program

/-!
# Programs that break off

Two programs that go the same way, except that the second may be stopped early by an exception.
`BreaksOff Later Cut x x'` says that each run of `x'` is that of `x`, or has raised in a state that
the run of `x` goes through.  `Later` is the order of the states along a run, and `Cut e u t` says
what is left, `t`, of a state `u` in which `e` has stopped the run.
-/

namespace Program

variable {ε σ α β : Type}

/-- `x'` does what `x` does, as far as it comes. -/
structure BreaksOff (Later : σ → σ → Prop) (Cut : ε → σ → σ → Prop) (x x' : EStateM ε σ α) :
    Prop where
  moves : Moves Later x
  breaks : ∀ s, x' s = x s ∨
    ∃ e u t, x' s = .error e t ∧ Later s u ∧ Cut e u t ∧ Later u (final x s)

namespace BreaksOff

variable {Later : σ → σ → Prop} {Cut : ε → σ → σ → Prop} {x x' : EStateM ε σ α}

/-- A program that is not stopped. -/
lemma same (h : Moves Later x) : BreaksOff Later Cut x x := ⟨h, fun _ => .inl rfl⟩

/-- A program that is stopped where it begins. -/
lemma stopped (hrefl : ∀ s, Later s s) (h : Moves Later x)
    (hstop : ∀ s, ∃ e t, x' s = .error e t ∧ Cut e s t) : BreaksOff Later Cut x x' := by
  refine ⟨h, fun s => .inr ?_⟩
  obtain ⟨e, t, hrun, hcut⟩ := hstop s
  exact ⟨e, s, t, hrun, hrefl s, hcut, h s⟩

lemma bind (htrans : ∀ s t u, Later s t → Later t u → Later s u) {f f' : α → EStateM ε σ β}
    (hx : BreaksOff Later Cut x x') (hf : ∀ a, BreaksOff Later Cut (f a) (f' a)) :
    BreaksOff Later Cut (x >>= f) (x' >>= f') := by
  refine ⟨Moves.bind htrans hx.moves fun a => (hf a).moves, fun s => ?_⟩
  obtain hsame | ⟨e, u, t, hrun, hbefore, hcut, hafter⟩ := hx.breaks s
  · have hmoves := hx.moves s
    rw [bind_apply, bind_apply, final, bind_apply, hsame]
    cases hcase : x s with
    | error e t => exact .inl rfl
    | ok a t =>
        rw [final_of_ok hcase] at hmoves
        obtain hrest | ⟨e, u, v, hrun, hbefore, hcut, hafter⟩ := (hf a).breaks t
        · exact .inl hrest
        · exact .inr ⟨e, u, v, hrun, htrans _ _ _ hmoves hbefore, hcut, hafter⟩
  · refine .inr ⟨e, u, t, bind_of_error hrun f', hbefore, hcut, ?_⟩
    cases hcase : x s with
    | error e' t' => rwa [final_bind_of_error hcase, ← final_of_error hcase]
    | ok a t' =>
        rw [final_of_ok hcase] at hafter
        rw [final_bind_of_ok hcase]
        exact htrans _ _ _ hafter ((hf a).moves t')

lemma get_bind {f f' : σ → EStateM ε σ β} (h : ∀ t, BreaksOff Later Cut (f t) (f' t)) :
    BreaksOff Later Cut (get >>= f) (get >>= f') :=
  ⟨fun s => (h s).moves s, fun s => (h s).breaks s⟩

lemma ite {c : Prop} [Decidable c] {y y' : EStateM ε σ α} (hx : BreaksOff Later Cut x x')
    (hy : BreaksOff Later Cut y y') :
    BreaksOff Later Cut (if c then x else y) (if c then x' else y') := by
  split
  · exact hx
  · exact hy

/-- A handler that cleans up and raises again. -/
lemma rethrow (htrans : ∀ s t u, Later s t → Later t u → Later s u)
    {handle : ε → EStateM ε σ α} (hx : BreaksOff Later Cut x x')
    (hmoves : ∀ e, Moves Later (handle e))
    (hraise : ∀ e u t, Cut e u t → ∃ t', handle e t = .error e t' ∧ Cut e u t') :
    BreaksOff Later Cut (tryCatch x handle) (tryCatch x' handle) := by
  refine ⟨Moves.tryCatch htrans hx.moves hmoves, fun s => ?_⟩
  obtain hsame | ⟨e, u, t, hrun, hbefore, hcut, hafter⟩ := hx.breaks s
  · refine .inl ?_
    rw [tryCatch_apply, tryCatch_apply, hsame]
  · obtain ⟨t', hhandle, hcut'⟩ := hraise e u t hcut
    refine .inr ⟨e, u, t', by rw [tryCatch_apply, hrun]; exact hhandle, hbefore, hcut', ?_⟩
    rw [final, tryCatch_apply]
    cases hcase : x s with
    | ok a v => rwa [final_of_ok hcase] at hafter
    | error e' v =>
        rw [final_of_error hcase] at hafter
        exact htrans _ _ _ hafter (hmoves e' v)

/-- A loop breaks off where a pass does. -/
lemma forEach (hrefl : ∀ s, Later s s) (htrans : ∀ s t u, Later s t → Later t u → Later s u)
    {body body' : α → EStateM ε σ Flow} {items : List α}
    (h : ∀ item ∈ items, BreaksOff Later Cut (body item) (body' item)) :
    BreaksOff Later Cut (forEach body items) (forEach body' items) := by
  induction items with
  | nil => exact same (Moves.pure hrefl ())
  | cons item items ih =>
      refine bind htrans (h item List.mem_cons_self) fun flow => ?_
      cases flow with
      | next => exact ih fun other hother => h other (List.mem_cons_of_mem item hother)
      | stop => exact same (Moves.pure hrefl ())

end BreaksOff

end Program
