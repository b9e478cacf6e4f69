import Mathlib.Data.List.Basic

/-!
# Checked copies

A vector is a list of elements at the places `0, 1, …`.  `copyWithin` and `copyInto` copy
element by element, from the left, into a vector, out of the same vector and out of a
range elsewhere; they give `none` as soon as they read or write outside of the vector, and
when the destination begins in the range that is copied.  Otherwise they give the vector with
the range written, also when a range that is moved to the left overlaps its destination.
-/

namespace Copy

variable {α : Type}

/-- Copy the `n` elements from place `first` on to place `dest` on, one by one. -/
def copyLoop (v : List α) (n first dest : Nat) : Option (List α) :=
  match n with
  | 0 => some v
  | n + 1 => do
    let x ← v[first]?
    if dest < v.length then
      copyLoop (v.set dest x) n (first + 1) (dest + 1)
    else
      none

/-- Copy the `n` elements from place `first` on to place `dest` on, which may not be one of
their places. -/
def copyWithin (v : List α) (n first dest : Nat) : Option (List α) :=
  if first ≤ dest ∧ dest < first + n then none else copyLoop v n first dest

/-- Copy the elements of `data` to place `dest` on. -/
def copyInto (v : List α) (dest : Nat) (data : List α) : Option (List α) :=
  match data with
  | [] => some v
  | x :: data =>
    if dest < v.length then
      copyInto (v.set dest x) (dest + 1) data
    else
      none

/-- The `n` elements from place `first` on. -/
def readRange (v : List α) (n first : Nat) : Option (List α) :=
  match n with
  | 0 => some []
  | n + 1 => do
    let x ← v[first]?
    let xs ← readRange v n (first + 1)
    return x :: xs

/-- `data` in the places of `v` from `dest` on. -/
def overwrite (v : List α) (dest : Nat) (data : List α) : List α :=
  v.take dest ++ data ++ v.drop (dest + data.length)

@[simp]
theorem overwrite_nil {v : List α} {dest : Nat} :
  overwrite v dest [] = v
  := by
  simp [overwrite]

/-- Writing the first element and then the others behind it. -/
theorem overwrite_cons {v data : List α} {dest : Nat} {x : α} (h : dest < v.length) :
  overwrite v dest (x :: data) = overwrite (v.set dest x) (dest + 1) data
  := by
  have htake : (v.set dest x).take (dest + 1) = v.take dest ++ [x] := by
    rw [List.take_add_one, List.take_set_of_le (Nat.le_refl dest),
      List.getElem?_set_self h, Option.toList_some]
  have hdrop : (v.set dest x).drop (dest + 1 + data.length)
      = v.drop (dest + (data.length + 1)) := by
    rw [List.drop_set_of_lt (by omega), Nat.add_assoc, Nat.add_comm 1]
  simp only [overwrite, htake, List.length_cons, hdrop, List.append_assoc, List.singleton_append]

/-- A copy into places of the vector writes the data there. -/
theorem copyInto_eq_some {v data : List α} {dest : Nat} (h : dest + data.length ≤ v.length) :
  copyInto v dest data = some (overwrite v dest data)
  := by
  induction data generalizing v dest with
  | nil =>
    rw [overwrite_nil]
    rfl
  | cons x data ih =>
    rw [List.length_cons] at h
    rw [copyInto, if_pos (by omega), ih, overwrite_cons (by omega)]
    rw [List.length_set]
    omega

/-- Moving a range of the vector to the left writes the range as it was before the move. -/
theorem copyLoop_eq_some {v : List α} {n first dest : Nat} (hdest : dest < first)
    (h : first + n ≤ v.length) :
  copyLoop v n first dest = some (overwrite v dest ((v.drop first).take n))
  := by
  induction n generalizing v first dest with
  | zero =>
    rw [List.take_zero, overwrite_nil]
    rfl
  | succ n ih =>
    have hfirst : first < v.length := by omega
    have hset : (v.set dest v[first]).drop (first + 1) = v.drop (first + 1) := by
      rw [List.drop_set_of_lt (by omega)]
    rw [copyLoop, List.getElem?_eq_getElem hfirst, Option.bind_eq_bind, Option.bind_some,
      if_pos (by omega), ih (by omega) (by rw [List.length_set]; omega), hset,
      ← overwrite_cons (by omega), List.drop_eq_getElem_cons hfirst, List.take_succ_cons]

theorem copyWithin_eq_some {v : List α} {n first dest : Nat} (hdest : dest < first)
    (h : first + n ≤ v.length) :
  copyWithin v n first dest = some (overwrite v dest ((v.drop first).take n))
  := by
  rw [copyWithin, if_neg (by omega)]
  apply copyLoop_eq_some hdest h

/-- A range of places of the vector can be read. -/
theorem readRange_eq_some {v : List α} {n first : Nat} (h : first + n ≤ v.length) :
  readRange v n first = some ((v.drop first).take n)
  := by
  induction n generalizing first with
  | zero => rfl
  | succ n ih =>
    have hfirst : first < v.length := by omega
    rw [readRange, List.getElem?_eq_getElem hfirst, ih (by omega),
      List.drop_eq_getElem_cons hfirst, List.take_succ_cons]
    rfl

end Copy
