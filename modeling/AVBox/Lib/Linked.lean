import Mathlib.Data.List.Basic

/-!
# Linked lists in a table

A place leads to the next one, or it ends the list: sectors in an allocation table, blocks that
hold the number of another block.  `Linked ends leads start items` says that the list at `start`
goes through `items`.  Where each place can be followed in one way only, the items are determined
by the start, and none of them occurs twice.
-/

variable {α : Type}

/-- The list that begins at a place, with the places it goes through. -/
inductive Linked (ends : α → Prop) (leads : α → α → Prop) : α → List α → Prop
  | stop {start : α} (hends : ends start) : Linked ends leads start []
  | next {start following : α} {items : List α} (hleads : leads start following)
      (rest : Linked ends leads following items) : Linked ends leads start (start :: items)

namespace Linked

/-- A place is followed in one way. -/
structure Functional (ends : α → Prop) (leads : α → α → Prop) : Prop where
  stop : ∀ a b, ends a → ¬leads a b
  next : ∀ a b c, leads a b → leads a c → b = c

variable {ends : α → Prop} {leads : α → α → Prop} {start : α} {items items' : List α}

/-- The start determines the items. -/
lemma unique (hfunctional : Functional ends leads) (h : Linked ends leads start items)
    (h' : Linked ends leads start items') : items = items' := by
  induction h generalizing items' with
  | stop hends =>
      cases h' with
      | stop _ => rfl
      | next hleads _ => exact absurd hleads (hfunctional.stop _ _ hends)
  | next hleads _ ih =>
      cases h' with
      | stop hends => exact absurd hleads (hfunctional.stop _ _ hends)
      | next hleads' rest' =>
          obtain rfl := hfunctional.next _ _ _ hleads hleads'
          rw [ih rest']

/-- Each item begins the part of the list from there on. -/
lemma of_mem (h : Linked ends leads start items) {item : α} (hmem : item ∈ items) :
    ∃ before after, items = before ++ item :: after ∧ Linked ends leads item (item :: after) := by
  induction h with
  | stop _ => simp at hmem
  | @next start following items hleads rest ih =>
      rcases List.mem_cons.1 hmem with rfl | hmem
      · exact ⟨[], items, rfl, .next hleads rest⟩
      · obtain ⟨before, after, rfl, hitem⟩ := ih hmem
        exact ⟨start :: before, after, rfl, hitem⟩

/-- A list that ends comes to no place twice. -/
lemma nodup (hfunctional : Functional ends leads) (h : Linked ends leads start items) :
    items.Nodup := by
  induction h with
  | stop _ => exact List.nodup_nil
  | @next start following items hleads rest ih =>
      refine List.nodup_cons.2 ⟨fun hmem => ?_, ih⟩
      obtain ⟨before, after, hitems, hagain⟩ := rest.of_mem hmem
      -- The list from the second occurrence on is the whole list again, and shorter.
      have hsame := unique hfunctional (.next hleads rest) hagain
      have hlength := congrArg List.length hsame
      rw [hitems] at hlength
      simp only [List.length_cons, List.length_append] at hlength
      omega

end Linked
