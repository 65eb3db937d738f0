import Mathlib.Data.List.TakeWhile

/-!
# Forests in preorder

A forest can be written down as a list in which each item comes before those below it, if the
items have their levels.  `directChildren` reads off such a list how many items are directly below
one, and `Branching` is the shape of a list in which these numbers are bounded.
-/

namespace AVBox

variable {α : Type*} (level : α → ℕ)

/-- The number of items directly below an item, among those that come after it. -/
def directChildren (item : α) (after : List α) : ℕ :=
  (after.takeWhile fun other => level item < level other).countP fun other =>
    level other = level item + 1

/-- A forest below a level, with the number of its roots, in which no item has more than `cap`
others directly below it. -/
inductive Branching (cap : ℕ) : ℕ → ℕ → List α → Prop
  | nil (depth : ℕ) : Branching cap depth 0 []
  | node {depth inner count : ℕ} {item : α} {children rest : List α}
      (hlevel : level item = depth + 1) (hinner : inner ≤ cap)
      (hchildren : Branching cap (depth + 1) inner children)
      (hrest : Branching cap depth count rest) :
      Branching cap depth (count + 1) (item :: (children ++ rest))

variable {level} {cap depth count : ℕ} {items rest : List α}

lemma takeWhile_append_of_head {p : α → Bool} (items : List α)
    (h : ∀ item, rest.head? = some item → p item = false) :
    (items ++ rest).takeWhile p = items.takeWhile p := by
  induction items with
  | nil =>
      cases rest with
      | nil => rfl
      | cons item rest =>
          refine List.takeWhile_cons_of_neg ?_
          rw [h item rfl]
          exact Bool.noConfusion
  | cons item items ih =>
      rw [List.cons_append, List.takeWhile_cons, List.takeWhile_cons, ih]

/-- What comes later can only add items. -/
lemma directChildren_mono (item : α) {after after' : List α} (h : after <+: after') :
    directChildren level item after ≤ directChildren level item after' := by
  obtain ⟨more, rfl⟩ := h
  refine List.Sublist.countP_le ?_
  rw [List.takeWhile_append]
  split
  · exact (List.takeWhile_sublist _).trans (List.sublist_append_left _ _)
  · exact .refl _

namespace Branching

lemma append {count' : ℕ} (h : Branching level cap depth count items)
    (h' : Branching level cap depth count' rest) :
    Branching level cap depth (count + count') (items ++ rest) := by
  induction h with
  | nil =>
      rw [Nat.zero_add]
      exact h'
  | node hlevel hinner hchildren _ _ ih =>
      rw [List.cons_append, List.append_assoc, Nat.add_right_comm]
      exact .node hlevel hinner hchildren (ih h')

lemma lt_level (h : Branching level cap depth count items) :
    ∀ item ∈ items, depth < level item := by
  induction h with
  | nil => exact fun _ hmem => absurd hmem List.not_mem_nil
  | node hlevel _ _ _ ihchildren ihrest =>
      have hbelow := fun item hitem => Nat.lt_of_succ_lt (ihchildren item hitem)
      exact List.forall_mem_cons.2 ⟨by omega, List.forall_mem_append.2 ⟨hbelow, ihrest⟩⟩

/-- The roots are the items of the first level. -/
lemma countP_level (h : Branching level cap depth count items) :
    items.countP (fun item => level item = depth + 1) = count := by
  induction h with
  | nil => rfl
  | @node depth inner count item children rest hlevel hinner hchildren hrest ihchildren ihrest =>
      have hnone : children.countP (fun other => level other = depth + 1) = 0 := by
        refine List.countP_eq_zero.2 fun other hother => ?_
        have hlt := hchildren.lt_level other hother
        simp only [decide_eq_true_eq]
        omega
      rw [List.countP_cons_of_pos (by simpa using hlevel), List.countP_append, hnone, ihrest,
        Nat.zero_add]

/-- A forest ends what is below an item that is deeper than its level. -/
lemma directChildren_append (h : Branching level cap depth count rest) {item : α}
    (hlevel : depth < level item) (items : List α) :
    directChildren level item (items ++ rest) = directChildren level item items := by
  refine congrArg (List.countP _) (takeWhile_append_of_head items fun other hother => ?_)
  cases h with
  | nil => cases hother
  | node hroot =>
      obtain rfl := Option.some.inj hother
      exact decide_eq_false (by omega)

/-- What is directly below an item is the first level of what is below it. -/
lemma directChildren_eq {item : α} (hlevel : level item = depth)
    (h : Branching level cap depth count items) : directChildren level item items = count := by
  have hall : items.takeWhile (fun other => level item < level other) = items := by
    refine List.takeWhile_eq_self_iff.2 fun other hother => decide_eq_true ?_
    rw [hlevel]
    exact h.lt_level other hother
  rw [directChildren, hall, hlevel, h.countP_level]

/-- By induction on the forest: no item has too many others directly below it. -/
lemma directChildren_le (h : Branching level cap depth count items) {before after : List α}
    {item : α} (hsplit : items = before ++ item :: after) :
    directChildren level item after ≤ cap := by
  induction h generalizing before after item with
  | nil => cases before <;> cases hsplit
  | @node depth inner count first children rest hlevel hinner hchildren hrest ihchildren ihrest =>
      cases before with
      | nil =>
          obtain ⟨rfl, rfl⟩ := List.cons.inj hsplit
          rw [hrest.directChildren_append (by omega), hchildren.directChildren_eq hlevel]
          exact hinner
      | cons head before =>
          obtain ⟨rfl, htail⟩ := List.cons.inj hsplit
          -- an item among the children is below the first one, and what follows them is not
          rcases List.append_eq_append_iff.1 htail with ⟨middle, rfl, hright⟩ |
            ⟨middle, hleft, hright⟩
          · exact ihrest hright
          · cases middle with
            | nil =>
                have hfirst : rest = [] ++ item :: after := hright.symm
                exact ihrest hfirst
            | cons middle below =>
                obtain ⟨rfl, hafter⟩ := List.cons.inj hright
                have hlt := hchildren.lt_level item (by simp [hleft])
                have hbelow := hrest.directChildren_append (by omega : depth < level item) below
                rw [hafter]
                exact hbelow.trans_le (ihchildren hleft)

/-- The same of a tree, at any moment of its growth. -/
lemma directChildren_le_of_prefix {root : α} (hroot : level root = depth)
    (h : Branching level cap depth count items) (hcount : count ≤ cap) {before after : List α}
    {item : α} (hpart : before ++ item :: after <+: root :: items) :
    directChildren level item after ≤ cap := by
  obtain ⟨more, hmore⟩ := hpart
  rw [List.append_assoc, List.cons_append] at hmore
  refine Nat.le_trans (directChildren_mono item (List.prefix_append after more)) ?_
  cases before with
  | nil =>
      obtain ⟨rfl, rfl⟩ := List.cons.inj hmore
      rw [h.directChildren_eq hroot]
      exact hcount
  | cons head before => exact h.directChildren_le (List.cons.inj hmore).2.symm

end Branching

end AVBox
