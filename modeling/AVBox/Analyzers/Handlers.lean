import AVBox.Analyzers.Members
import AVBox.Analyzers.Runs

/-!
# What the handlers add to their members

A handler visits members, and besides that it only makes minor writes: it reads the clock, counts,
charges partitions, and notes events and errors.  `handlerRules_carries` turns this into a rule.  A
relation that the minor writes respect is carried by every handler that returns, if it is carried
by the visits.
-/

namespace AVBox

open Program

namespace ContainerAnalyzer

variable {ω : Type} {env : ExtractEnv} {R : ExtractState ω → ExtractState ω → Prop}

/-- The writes of the handlers. -/
def Write.minor : Write → Bool
  | .charged _ => true
  | write => Write.plain write

lemma Write.minor_of_plain {write : Write} (h : Write.plain write = true) :
    Write.minor write = true := by
  cases write <;> first | exact h | rfl

/-- A preorder of states that the writes of the handlers respect. -/
structure Respected (R : ExtractState ω → ExtractState ω → Prop) : Prop where
  refl : ∀ s, R s s
  trans : ∀ s t u, R s t → R t u → R s u
  minor : ∀ write, Write.minor write = true → ∀ s, R s (write.apply s)

/-- A run that returns moves the state along `R`. -/
abbrev Carries {α : Type} (R : ExtractState ω → ExtractState ω → Prop) (x : Extract ω α) : Prop :=
  Ends R (fun _ _ _ => True) x

lemma Respected.composes (hR : Respected R) : Composes R (fun (_ : Exc) _ _ => True) :=
  ⟨hR.refl, hR.trans, fun _ _ _ _ _ _ => trivial⟩

section Respected

variable (hR : Respected R)

include hR

/-! ## Calls and limits -/

lemma carries_perform {write : Write} (h : Write.minor write = true) :
    Carries R (perform write : Extract ω Unit) := Ends.modify (hR.minor write h)

lemma carries_limit (event : String) : Carries R (limit event : Extract ω Unit) :=
  carries_perform hR rfl

lemma carries_skip (event : String) : Carries R (skip event : Extract ω Unit) :=
  carries_perform hR rfl

lemma carries_decode {α : Type} (site : DecodeSite) (r : Except Exc α) :
    Carries R (decode site r : Extract ω α) := by
  cases r with
  | ok a => exact Ends.pure hR.composes a
  | error exc => exact fun _ => trivial

/-! ## The handlers -/

lemma carries_rules : ProgramRules fun _ x => Carries R x where
  pure := Ends.pure hR.composes
  throw _ := fun _ => trivial
  perform hplain := carries_perform hR (Write.minor_of_plain hplain)
  get_bind := Ends.get_bind
  bind_result := Ends.bind_result hR.composes

/-- Where the writes to a file are respected too. -/
lemma carries_files
    (hfiling : ∀ write, Write.filing write = true → ∀ s : ExtractState ω, R s (write.apply s)) :
    FileRules fun _ x => Carries R x where
  toProgramRules := carries_rules hR
  filing hwrite := Ends.modify (hfiling _ hwrite)
  unlink {_ _ x} hx := fun s => by
    rw [tryCatch_apply]
    cases hrun : x s with
    | ok a t => exact hx.of_ok hrun
    | error exc t => trivial

lemma handlerRules_carries {visit : Visit ω} (hvisit : ∀ member, Carries R (visit member)) :
    HandlerRules env visit fun _ x => Carries R x where
  toProgramRules := carries_rules hR
  visits _ _ := hvisit _
  partition _ _ := (carries_rules hR).partitionMember _ _
    (fun member _ => hvisit member) (carries_perform hR rfl)

/-- An object carries what its members carry. -/
lemma objectBody_carries {scans : Scans ω} {recurse : Recurse ω} {source : Source}
    (hvisit : ∀ member, Carries R (childOf env scans recurse source member)) :
    Carries R (objectBody env scans recurse source) := (handlerRules_carries hR hvisit).objectBody

end Respected

end ContainerAnalyzer

end AVBox
