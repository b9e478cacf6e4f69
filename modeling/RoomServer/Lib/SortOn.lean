import Mathlib.Data.List.Sort
import Mathlib.Data.List.Nodup

/-!
# Sorting by a key

`l.sortOn key` is `l` in increasing order of `key`.  When no two elements of `l` have the
same key, it is the only increasing arrangement of the elements of `l`: it does not depend
on the order of `l`, nor on the sorting algorithm.
-/

universe u v w

namespace List

variable {α : Type u} {κ : Type v} [LinearOrder κ]

/-- The elements of `l` in increasing order of `key`. -/
def sortOn (key : α → κ) (l : List α) : List α :=
  l.insertionSort (fun a b => key a ≤ key b)

variable {key : α → κ} {l l' : List α}

theorem sortOn_perm (key : α → κ) (l : List α) :
  (l.sortOn key).Perm l
  := perm_insertionSort _ l

@[simp]
theorem mem_sortOn {a : α} :
  a ∈ l.sortOn key ↔ a ∈ l
  := (sortOn_perm key l).mem_iff

@[simp]
theorem length_sortOn (key : α → κ) (l : List α) :
  (l.sortOn key).length = l.length
  := (sortOn_perm key l).length_eq

theorem pairwise_sortOn (key : α → κ) (l : List α) :
  (l.sortOn key).Pairwise (fun a b => key a ≤ key b)
  := by
  have : Std.Total (fun a b : α => key a ≤ key b) := ⟨fun a b => le_total (key a) (key b)⟩
  have : IsTrans α (fun a b => key a ≤ key b) := ⟨fun _ _ _ => le_trans⟩
  apply pairwise_insertionSort

/-- A list with distinct keys is sorted strictly. -/
theorem pairwise_lt_sortOn (h : (l.map key).Nodup) :
  (l.sortOn key).Pairwise (fun a b => key a < key b)
  := by
  have hn : ((l.sortOn key).map key).Nodup := (((sortOn_perm key l).map key).nodup_iff).mpr h
  rw [Nodup, pairwise_map] at hn
  apply ((pairwise_sortOn key l).and hn).imp
  rintro a b ⟨hle, hne⟩
  apply lt_of_le_of_ne hle hne

/-- A list in strictly increasing order of `key` is determined by its elements. -/
theorem eq_of_perm_of_pairwise_lt
    (h : l.Pairwise (fun a b => key a < key b)) (h' : l'.Pairwise (fun a b => key a < key b))
    (hp : l.Perm l') :
  l = l'
  := by
  apply hp.eq_of_pairwise _ h h'
  intro a b _ _ hab hba
  cases lt_asymm hab hba

/-- A strictly increasing list is its own sorting, from whatever order it is sorted. -/
theorem sortOn_eq_of_pairwise_lt (h : l'.Pairwise (fun a b => key a < key b))
    (hp : l.Perm l') :
  l.sortOn key = l'
  := by
  apply eq_of_perm_of_pairwise_lt _ h ((sortOn_perm key l).trans hp)
  apply pairwise_lt_sortOn
  apply ((hp.map key).nodup_iff).mpr
  rw [Nodup, pairwise_map]
  apply h.imp
  intro a b hab
  apply ne_of_lt hab

/-- A list in strictly increasing order of `key` has no duplicates. -/
theorem nodup_of_pairwise_lt (h : l.Pairwise (fun a b => key a < key b)) :
  l.Nodup
  := by
  apply h.imp
  rintro a _ hab rfl
  apply lt_irrefl _ hab

/-- A list in strictly increasing order of a key has no duplicates in what the key is of. -/
theorem nodup_map_of_pairwise_lt {β : Type w} {f : α → β} {g : β → κ}
    (h : l.Pairwise fun a b => g (f a) < g (f b)) :
  (l.map f).Nodup
  := by
  rw [Nodup, pairwise_map]
  apply h.imp
  intro a b hlt heq
  rw [heq] at hlt
  apply lt_irrefl _ hlt

/-- Two lists in strictly increasing order of `key` with the same elements are the same. -/
theorem eq_of_mem_iff_of_pairwise_lt
    (h : l.Pairwise (fun a b => key a < key b)) (h' : l'.Pairwise (fun a b => key a < key b))
    (hmem : ∀ a, a ∈ l ↔ a ∈ l') :
  l = l'
  := by
  apply eq_of_perm_of_pairwise_lt h h'
  apply (perm_ext_iff_of_nodup (nodup_of_pairwise_lt h) (nodup_of_pairwise_lt h')).mpr hmem

end List
