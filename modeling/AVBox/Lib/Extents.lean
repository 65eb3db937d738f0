import AVBox.Lib.Layout
import Mathlib.Order.Interval.Finset.Nat

/-!
# Extents

Stretches of a range of places (`Extent`).  Stretches that lie apart do not add up to more than the
range they lie in (`sum_size_le`), and no more do contents that are read from such stretches
(`sum_length_le`).
-/

/-- A start and a size. -/
structure Extent where
  start : ℕ
  size : ℕ
  deriving DecidableEq

namespace Extent

/-- The extent ends within the limit. -/
def Within (limit : ℕ) (extent : Extent) : Prop := extent.start + extent.size ≤ limit

/-- One extent ends before the other starts. -/
def Apart (first second : Extent) : Prop :=
  first.start + first.size ≤ second.start ∨ second.start + second.size ≤ first.start

/-- The places of the extent. -/
def places (extent : Extent) : Finset ℕ := Finset.Ico extent.start (extent.start + extent.size)

/-- The places of the extents. -/
def covered : List Extent → Finset ℕ
  | [] => ∅
  | extent :: extents => extent.places ∪ covered extents

lemma mem_covered {extents : List Extent} {place : ℕ} :
    place ∈ covered extents ↔ ∃ extent ∈ extents, place ∈ extent.places := by
  induction extents with
  | nil => simp [covered]
  | cons extent extents ih => simp [covered, ih]

lemma Apart.disjoint {first second : Extent} (h : Apart first second) :
    Disjoint first.places second.places := by
  refine Finset.disjoint_left.2 fun place hfirst hsecond => ?_
  simp only [places, Finset.mem_Ico] at hfirst hsecond
  rcases h with h | h <;> omega

lemma card_covered {extents : List Extent} (h : extents.Pairwise Apart) :
    (covered extents).card = (extents.map size).sum := by
  induction extents with
  | nil => rfl
  | cons extent extents ih =>
      obtain ⟨hextent, hextents⟩ := List.pairwise_cons.1 h
      have hdisjoint : Disjoint extent.places (covered extents) := by
        refine Finset.disjoint_left.2 fun place hplace hcovered => ?_
        obtain ⟨other, hother, hmem⟩ := mem_covered.1 hcovered
        exact Finset.disjoint_left.1 (hextent other hother).disjoint hplace hmem
      have hcard : extent.places.card = extent.size := by
        rw [places, Nat.card_Ico, Nat.add_sub_cancel_left]
      rw [covered, Finset.card_union_of_disjoint hdisjoint, hcard, ih hextents, List.map_cons,
        List.sum_cons]

/-- Extents that lie apart fit in the range together. -/
theorem sum_size_le {limit : ℕ} {extents : List Extent}
    (hwithin : ∀ extent ∈ extents, extent.Within limit) (hapart : extents.Pairwise Apart) :
    (extents.map size).sum ≤ limit := by
  have hsubset : covered extents ⊆ Finset.range limit := fun place hplace => by
    obtain ⟨extent, hextent, hmem⟩ := mem_covered.1 hplace
    have hstop : extent.start + extent.size ≤ limit := hwithin extent hextent
    simp only [places, Finset.mem_Ico] at hmem
    exact Finset.mem_range.2 (by omega)
  rw [← card_covered hapart, ← Finset.card_range limit]
  exact Finset.card_le_card hsubset

/-! ## Reading -/

section Reading

variable {α : Type*} {data : List α}

/-- What the data holds there. -/
def read (data : List α) (extent : Extent) : List α := (data.drop extent.start).take extent.size

/-- The content is read from the extents, which hold it in this order, the last one perhaps with
something behind it.  None is read twice. -/
structure Holds (data : List α) (extents : List Extent) (content : List α) : Prop where
  within : ∀ extent ∈ extents, extent.Within data.length
  apart : extents.Pairwise Apart
  content : ∃ size, content = (extents.flatMap (read data)).take size

lemma length_flatMap_read_le (data : List α) (extents : List Extent) :
    (extents.flatMap (read data)).length ≤ (extents.map size).sum := by
  induction extents with
  | nil => exact Nat.le_refl 0
  | cons extent extents ih =>
      rw [List.flatMap_cons, List.length_append, List.map_cons, List.sum_cons]
      exact Nat.add_le_add (List.length_take_le ..) ih

lemma Holds.length_le_sum {extents : List Extent} {content : List α}
    (h : Holds data extents content) : content.length ≤ (extents.map size).sum := by
  obtain ⟨size, rfl⟩ := h.content
  exact (List.length_take_le' ..).trans (length_flatMap_read_le data extents)

lemma Holds.length_le {extents : List Extent} {content : List α} (h : Holds data extents content) :
    content.length ≤ data.length :=
  h.length_le_sum.trans (sum_size_le h.within h.apart)

/-- No two contents are read from extents that overlap. -/
def Unshared (files : List (List Extent)) : Prop :=
  files.Pairwise fun extents extents' => ∀ extent ∈ extents, ∀ extent' ∈ extents',
    Apart extent extent'

theorem sum_length_le {files : List (List Extent)} {contents : List (List α)}
    (h : List.Forall₂ (Holds data) files contents) (hunshared : Unshared files) :
    (contents.map List.length).sum ≤ data.length := by
  have hsum : (contents.map List.length).sum ≤ (files.flatten.map size).sum := by
    clear hunshared
    induction h with
    | nil => exact Nat.le_refl 0
    | cons hfile _ ih =>
        rw [List.map_cons, List.sum_cons, List.flatten_cons, List.map_append, List.sum_append]
        exact Nat.add_le_add hfile.length_le_sum ih
  have hfiles : ∀ extents ∈ files, (∀ extent ∈ extents, extent.Within data.length) ∧
      extents.Pairwise Apart :=
    ((List.forall₂_and_left _ _).1 (h.imp fun _ _ hfile =>
      ⟨⟨hfile.within, hfile.apart⟩, hfile⟩)).1
  refine hsum.trans (sum_size_le (fun extent hextent => ?_)
    (List.pairwise_flatten.2 ⟨fun extents hextents => (hfiles extents hextents).2, hunshared⟩))
  obtain ⟨extents, hextents, hmem⟩ := List.mem_flatten.1 hextent
  exact (hfiles extents hextents).1 extent hmem

end Reading

end Extent
