import Mathlib.Data.List.Basic

/-!
# Codes that can be read back

A text is encoded character by character, and fields are joined by a separator.  Both can be undone
when no code word begins another one, and when no field behind the first contains the separator.
-/

namespace Codes

variable {α β : Type}

/-- What is written for a character is not the beginning of anything else. -/
def PrefixFree (encode : α → List β) : Prop :=
  ∀ a b rest rest', encode a ++ rest = encode b ++ rest' → a = b

/-- A text is determined by its encoding. -/
theorem PrefixFree.flatMap_injective {encode : α → List β} (h : PrefixFree encode)
    (hne : ∀ a, encode a ≠ []) : Function.Injective fun text : List α => text.flatMap encode := by
  intro text other heq
  simp only at heq
  induction text generalizing other with
  | nil =>
      cases other with
      | nil => rfl
      | cons b other =>
          rw [List.flatMap_nil, List.flatMap_cons, eq_comm, List.append_eq_nil_iff] at heq
          exact absurd heq.1 (hne b)
  | cons a text ih =>
      cases other with
      | nil =>
          rw [List.flatMap_nil, List.flatMap_cons, List.append_eq_nil_iff] at heq
          exact absurd heq.1 (hne a)
      | cons b other =>
          rw [List.flatMap_cons, List.flatMap_cons] at heq
          obtain rfl := h a b _ _ heq
          rw [ih (List.append_cancel_left heq)]

/-- The field behind the last separator is determined by the whole. -/
theorem append_separator_inj {separator : α} {front front' field field' : List α}
    (hfield : separator ∉ field) (hfield' : separator ∉ field')
    (heq : front ++ separator :: field = front' ++ separator :: field') :
    front = front' ∧ field = field' := by
  have hrest {field field' between : List α} (hfield : separator ∉ field)
      (h : separator :: field = between ++ separator :: field') :
      between = [] ∧ field = field' := by
    cases between with
    | nil => exact ⟨rfl, (List.cons_inj_right _).1 h⟩
    | cons c between =>
        obtain ⟨-, rfl⟩ := List.cons_eq_cons.1 h
        exact absurd (List.mem_append_right _ List.mem_cons_self) hfield
  obtain ⟨between, rfl, h⟩ | ⟨between, rfl, h⟩ := List.append_eq_append_iff.1 heq
  · obtain ⟨rfl, rfl⟩ := hrest hfield h
    exact ⟨(List.append_nil _).symm, rfl⟩
  · obtain ⟨rfl, rfl⟩ := hrest hfield' h
    exact ⟨List.append_nil _, rfl⟩

end Codes
