import Mathlib.Algebra.BigOperators.Group.List.Basic
import Mathlib.Algebra.Ring.Int.Defs
import Mathlib.Data.List.AList
import Mathlib.Data.List.Perm.Basic
import Mathlib.Data.List.Perm.Subperm

/-!
# Unordered maps

`UnorderedMap K V` is a list of entries with pairwise distinct keys, in an order nothing
may depend on.  The order of the entries is the order in which a loop over the map visits
them; two maps are equal up to this order exactly when they have the same lookups.
-/

universe u v w

/-- A finite map from `K` to `V`, kept as a list of entries with distinct keys. -/
abbrev UnorderedMap (K : Type u) (V : Type v) : Type (max u v) := AList (fun _ : K => V)

/-! ### Related lookups -/

namespace Option

variable {V : Type v} {W : Type w} {R : V → W → Prop} {x : Option V} {y : Option W}

theorem exists_left_of_rel (h : Option.Rel R x y) {w : W} (hy : y = some w) :
  ∃ v, x = some v ∧ R v w
  := by
  cases h with
  | none => cases hy
  | some hrel =>
    cases hy
    exact ⟨_, rfl, hrel⟩

theorem exists_right_of_rel (h : Option.Rel R x y) {v : V} (hx : x = some v) :
  ∃ w, y = some w ∧ R v w
  := by
  cases h with
  | none => cases hx
  | some hrel =>
    cases hx
    exact ⟨_, rfl, hrel⟩

end Option

/-! ### Maps -/

namespace AList

variable {K : Type u} {V : Type v} {W : Type w}

/-- The number of entries. -/
def size (m : AList (fun _ : K => V)) : Nat := m.entries.length

/-- The values, in the order of the entries. -/
def values (m : AList (fun _ : K => V)) : List V := m.entries.map Sigma.snd

/-- Every value replaced by its image under `f`, in the same order of entries. -/
def mapValues (f : V → W) (m : AList (fun _ : K => V)) : AList (fun _ : K => W) where
  entries := m.entries.map (fun e => ⟨e.1, f e.2⟩)
  nodupKeys := m.nodupKeys.map₂ (fun _ => f)

theorem length_keys (m : AList (fun _ : K => V)) :
  m.keys.length = m.size
  := by
  simp [keys, List.keys, size]

@[simp]
theorem size_empty :
  (∅ : AList (fun _ : K => V)).size = 0
  := rfl

/-- A map with no more keys than another has no more entries. -/
theorem size_le_of_subset {m : AList (fun _ : K => V)} {m' : AList (fun _ : K => W)}
    (h : ∀ k, k ∈ m → k ∈ m') :
  m.size ≤ m'.size
  := by
  rw [← length_keys, ← length_keys]
  apply List.Subperm.length_le
  apply m.keys_nodup.subperm
  intro k hk
  apply h k hk

theorem keys_mapValues (f : V → W) (m : AList (fun _ : K => V)) :
  (m.mapValues f).keys = m.keys
  := by
  rw [keys, keys, mapValues, List.keys, List.keys, List.map_map]
  rfl

/-- Two maps with the same keys have the same number of entries. -/
theorem size_eq_of_mem_iff {m : AList (fun _ : K => V)} {m' : AList (fun _ : K => W)}
    (h : ∀ k, k ∈ m ↔ k ∈ m') :
  m.size = m'.size
  := Nat.le_antisymm (size_le_of_subset fun k => (h k).mp) (size_le_of_subset fun k => (h k).mpr)

variable [DecidableEq K]

theorem mem_values {m : AList (fun _ : K => V)} {x : V} :
  x ∈ m.values ↔ ∃ k, m.lookup k = some x
  := by
  simp only [values, List.mem_map]
  constructor
  · rintro ⟨⟨k, y⟩, hy, rfl⟩
    use k
    apply mem_lookup_iff.mpr hy
  · rintro ⟨k, hk⟩
    use ⟨k, x⟩, mem_lookup_iff.mp hk

theorem mem_iff_lookup {m : AList (fun _ : K => V)} {k : K} :
  k ∈ m ↔ ∃ x, m.lookup k = some x
  := by
  rw [← lookup_isSome, Option.isSome_iff_exists]

/-- The values are those of the keys. -/
theorem values_eq_filterMap (m : AList (fun _ : K => V)) :
  m.values = m.keys.filterMap m.lookup
  := by
  rw [values, keys, List.keys, List.filterMap_map, ← List.filterMap_eq_map]
  apply List.filterMap_congr
  intro e he
  apply (mem_lookup_iff.mpr he).symm

/-- Maps with the same keys in the same order and the same values are the same. -/
theorem ext_of_keys {m m' : AList (fun _ : K => V)} (hkeys : m.keys = m'.keys)
    (h : ∀ k, m.lookup k = m'.lookup k) :
  m = m'
  := by
  have hentries : ∀ m : AList (fun _ : K => V),
      m.entries = m.keys.filterMap fun k => (m.lookup k).map (Sigma.mk k) := by
    intro m
    rw [keys, List.keys, List.filterMap_map]
    conv_lhs => rw [← List.map_id m.entries, ← List.filterMap_eq_map]
    apply List.filterMap_congr
    intro e he
    have hlookup : m.lookup e.1 = some e.2 := mem_lookup_iff.mpr he
    dsimp only [Function.comp]
    rw [hlookup]
    rfl
  apply AList.ext
  rw [hentries m, hentries m', hkeys]
  apply List.filterMap_congr
  intro k _
  rw [h]

@[simp]
theorem lookup_mapValues (f : V → W) (m : AList (fun _ : K => V)) (k : K) :
  (m.mapValues f).lookup k = (m.lookup k).map f
  := List.dlookup_map₂ (l := m.entries) (f := fun _ => f) k

theorem lookup_insert_eq_ite (m : AList (fun _ : K => V)) (k k' : K) (x : V) :
  (m.insert k' x).lookup k = if k = k' then some x else m.lookup k
  := by
  split
  · next h =>
    subst h
    apply lookup_insert
  · next h => apply lookup_insert_ne h

theorem lookup_erase_eq_ite (m : AList (fun _ : K => V)) (k k' : K) :
  (m.erase k').lookup k = if k = k' then none else m.lookup k
  := by
  split
  · next h =>
    subst h
    apply lookup_erase
  · next h => apply lookup_erase_ne h

/-- The map with the value of `k` replaced by `x`, if it has one; the order of the entries
stays. -/
def assign (m : AList (fun _ : K => V)) (k : K) (x : V) : AList (fun _ : K => V) where
  entries := m.entries.map (fun e => ⟨e.1, if e.1 = k then x else e.2⟩)
  nodupKeys := m.nodupKeys.map₂ (fun k' y => if k' = k then x else y)

theorem keys_assign (m : AList (fun _ : K => V)) (k : K) (x : V) :
  (m.assign k x).keys = m.keys
  := by
  simp only [keys, assign, List.keys, List.map_map]
  rfl

theorem lookup_assign (m : AList (fun _ : K => V)) (k : K) (x : V) (k' : K) :
  (m.assign k x).lookup k' = (m.lookup k').map (fun y => if k' = k then x else y)
  := List.dlookup_map₂ (l := m.entries) (f := fun k' y => if k' = k then x else y) k'

theorem lookup_assign_of_mem {m : AList (fun _ : K => V)} {k : K} (h : k ∈ m) (x : V) (k' : K) :
  (m.assign k x).lookup k' = if k' = k then some x else m.lookup k'
  := by
  rw [lookup_assign]
  split
  · next hk =>
    obtain ⟨y, hy⟩ := mem_iff_lookup.mp h
    rw [hk, hy, Option.map_some]
  · next hk => simp

@[simp]
theorem mem_assign {m : AList (fun _ : K => V)} {k k' : K} {x : V} :
  k' ∈ m.assign k x ↔ k' ∈ m
  := by
  rw [← lookup_isSome, lookup_assign, Option.isSome_map, lookup_isSome]

@[simp]
theorem size_assign (m : AList (fun _ : K => V)) (k : K) (x : V) :
  (m.assign k x).size = m.size
  := by
  simp [size, assign]

/-- Writing back the value a key has changes nothing. -/
theorem assign_lookup {m : AList (fun _ : K => V)} {k : K} {x : V} (h : m.lookup k = some x) :
  m.assign k x = m
  := by
  apply AList.ext
  rw [assign]
  conv_rhs => rw [← List.map_id m.entries]
  apply List.map_congr_left
  rintro ⟨k', y⟩ he
  rw [id, Sigma.mk.injEq]
  use rfl
  split
  · next hk =>
    dsimp only at hk
    rw [← mem_lookup_iff, hk, h] at he
    cases he
    rfl
  · rfl

theorem assign_assign (m : AList (fun _ : K => V)) (k : K) (x y : V) :
  (m.assign k x).assign k y = m.assign k y
  := by
  apply AList.ext
  simp only [assign, List.map_map]
  apply List.map_congr_left
  rintro ⟨k', z⟩ _
  simp only [Function.comp]
  split <;> rfl

/-- Replacing a value by another with the same image changes no image. -/
theorem map_values_assign {β : Type w} {m : AList (fun _ : K => V)} {k : K} {x : V}
    (h : m.lookup k = some x) (f : V → β) {y : V} (hy : f y = f x) :
  (m.assign k y).values.map f = m.values.map f
  := by
  simp only [values, assign, List.map_map]
  apply List.map_congr_left
  rintro ⟨k', z⟩ he
  dsimp only [Function.comp]
  split
  · next hk =>
    subst hk
    rw [← mem_lookup_iff, h] at he
    cases he
    exact hy
  · rfl

/-- The values are the value of a key and others, which stay when that value is replaced. -/
theorem exists_perm_values {m : AList (fun _ : K => V)} {k : K} {x : V}
    (h : m.lookup k = some x) :
  ∃ others : List V, m.values.Perm (x :: others)
    ∧ (m.erase k).values.Perm others
    ∧ ∀ y, (m.assign k y).values.Perm (y :: others)
  := by
  have hmem : (⟨k, x⟩ : Sigma fun _ : K => V) ∈ m.entries := mem_lookup_iff.mp h
  obtain ⟨l, r, hentries⟩ := List.append_of_mem hmem
  have hne := m.nodupKeys.pairwise_ne
  rw [hentries, List.pairwise_append, List.pairwise_cons] at hne
  obtain ⟨-, ⟨hright, -⟩, hleft⟩ := hne
  have hl : ∀ e ∈ l, e.1 ≠ k := fun e he => hleft e he _ List.mem_cons_self
  have hr : ∀ e ∈ r, e.1 ≠ k := fun e he => (hright e he).symm
  have hsame : ∀ (y : V) {l' : List (Sigma fun _ : K => V)}, (∀ e ∈ l', e.1 ≠ k) →
      l'.map (fun e => if e.1 = k then y else e.2) = l'.map Sigma.snd := by
    intro y l' hl'
    apply List.map_congr_left
    intro e he
    rw [if_neg (hl' e he)]
  use l.map Sigma.snd ++ r.map Sigma.snd
  refine ⟨?_, ?_, ?_⟩
  · rw [values, hentries, List.map_append, List.map_cons]
    apply List.perm_middle
  · have herase : (m.erase k).entries = l ++ r := by
      have hk : k ∉ l.keys := by
        intro hk
        obtain ⟨x', hx'⟩ := List.exists_of_mem_keys hk
        apply hl _ hx' rfl
      have hcons : List.kerase k (⟨k, x⟩ :: r) = r := List.kerase_cons_eq rfl
      show List.kerase k m.entries = l ++ r
      rw [hentries, List.kerase_append_right hk, hcons]
    rw [values, herase, List.map_append]
  · intro y
    simp only [values, assign, hentries, List.map_map, List.map_append, List.map_cons,
      Function.comp_def, if_true]
    rw [hsame y hl, hsame y hr]
    apply List.perm_middle

/-- The values behind a new one. -/
theorem values_insert_of_notMem {m : AList (fun _ : K => V)} {k : K} (h : k ∉ m) (x : V) :
  (m.insert k x).values = x :: m.values
  := by
  rw [values, entries_insert_of_notMem h]
  rfl

/-- Replacing a value by another changes a sum over the values by the difference of the two. -/
theorem sum_values_assign {m : AList (fun _ : K => V)} {k : K} {x : V} (h : m.lookup k = some x)
    (f : V → Int) (y : V) :
  ((m.assign k y).values.map f).sum + f x = (m.values.map f).sum + f y
  := by
  obtain ⟨others, hvalues, -, hassign⟩ := exists_perm_values h
  rw [((hassign y).map f).sum_eq, (hvalues.map f).sum_eq, List.map_cons, List.map_cons,
    List.sum_cons, List.sum_cons]
  omega

/-- The map with an entry for `k` added, unless it has one. -/
def emplace (m : AList (fun _ : K => V)) (k : K) (x : V) : AList (fun _ : K => V) :=
  if k ∈ m then m else m.insert k x

theorem emplace_of_notMem {m : AList (fun _ : K => V)} {k : K} (h : k ∉ m) (x : V) :
  m.emplace k x = m.insert k x
  := if_neg h

/-- Erasing an entry that was just added under a new key gives the map back. -/
theorem erase_insert_of_notMem {m : AList (fun _ : K => V)} {k : K} (h : k ∉ m) (x : V) :
  (m.insert k x).erase k = m
  := by
  apply AList.ext
  change (m.insert k x).entries.kerase k = m.entries
  rw [insert_of_notMem h]
  simp

/-! ### Size -/

theorem size_insert_of_notMem {m : AList (fun _ : K => V)} {k : K} (h : k ∉ m) (x : V) :
  (m.insert k x).size = m.size + 1
  := by
  rw [size, entries_insert_of_notMem h]
  rfl

/-- A property of the values that tells keys apart tells the values apart. -/
theorem nodup_map_values {β : Type w} {m : AList (fun _ : K => V)} {f : V → β}
    (h : ∀ {k k' x x'}, m.lookup k = some x → m.lookup k' = some x' → f x = f x' → k = k') :
  (m.values.map f).Nodup
  := by
  rw [values, List.map_map, List.Nodup, List.pairwise_map]
  apply m.nodupKeys.pairwise_ne.imp_of_mem
  intro e e' he he' hne heq
  apply hne (h (mem_lookup_iff.mpr he) (mem_lookup_iff.mpr he') heq)

/-! ### Entering a list -/

/-- The elements of a list entered into `m` one after the other, each under its key; none when
`make` refuses an element or a key is taken. -/
def enter {α : Type u} (key : α → K) (make : α → Option V) :
    List α → AList (fun _ : K => V) → Option (AList (fun _ : K => V))
  | [], m => some m
  | a :: l, m =>
    if key a ∈ m then
      none
    else
      match make a with
      | none => none
      | some x => enter key make l (m.emplace (key a) x)

/-- A list is entered exactly when its keys are new and distinct and `make` refuses none of its
elements. -/
theorem enter_isSome_iff {α : Type u} {key : α → K} {make : α → Option V} {l : List α}
    {m : AList (fun _ : K => V)} :
  (enter key make l m).isSome
    ↔ (l.map key).Nodup ∧ (∀ a ∈ l, key a ∉ m) ∧ ∀ a ∈ l, (make a).isSome
  := by
  induction l generalizing m with
  | nil => simp [enter]
  | cons a l ih =>
    rw [enter]
    split
    · next h =>
      constructor
      · intro h'
        cases h'
      · rintro ⟨-, hnew, -⟩
        cases hnew a List.mem_cons_self h
    · next h =>
      split
      · next hmake => simp [hmake]
      · next x hmake =>
        rw [ih, emplace_of_notMem h, List.map_cons, List.nodup_cons]
        simp only [mem_insert, List.forall_mem_cons, hmake, List.mem_map, Option.isSome_some]
        grind

/-- The entries of a map a list was entered into. -/
theorem lookup_enter {α : Type u} {key : α → K} {make : α → Option V} {l : List α}
    {m m' : AList (fun _ : K => V)} (h : enter key make l m = some m') {k : K} {x : V} :
  m'.lookup k = some x ↔ m.lookup k = some x ∨ ∃ a ∈ l, key a = k ∧ make a = some x
  := by
  induction l generalizing m with
  | nil =>
    cases h
    simp
  | cons a l ih =>
    rw [enter] at h
    split at h
    · cases h
    · next hnew =>
      split at h
      · cases h
      · next y hmake =>
        have hnone : m.lookup (key a) = none := lookup_eq_none.mpr hnew
        rw [ih h, emplace_of_notMem hnew, lookup_insert_eq_ite]
        simp only [List.mem_cons, exists_eq_or_imp, hmake, Option.some.injEq]
        grind

/-- A list is entered into the empty map as as many entries as it has elements. -/
theorem size_enter {α : Type u} {key : α → K} {make : α → Option V} {l : List α}
    {m m' : AList (fun _ : K => V)} (h : enter key make l m = some m') :
  m'.size = m.size + l.length
  := by
  induction l generalizing m with
  | nil =>
    cases h
    rfl
  | cons a l ih =>
    rw [enter] at h
    split at h
    · cases h
    · next hnew =>
      split at h
      · cases h
      · rw [ih h, emplace_of_notMem hnew, size_insert_of_notMem hnew, List.length_cons]
        omega

/-! ### Equality up to the order of the entries -/

/-- The two maps have the same lookups. -/
def Similar (m m' : AList (fun _ : K => V)) : Prop := ∀ k, m.lookup k = m'.lookup k

theorem Similar.refl (m : AList (fun _ : K => V)) : m.Similar m := fun _ => rfl

theorem Similar.symm {m m' : AList (fun _ : K => V)} (h : m.Similar m') : m'.Similar m :=
  fun k => (h k).symm

theorem Similar.trans {m m' m'' : AList (fun _ : K => V)} (h : m.Similar m')
    (h' : m'.Similar m'') : m.Similar m'' :=
  fun k => (h k).trans (h' k)

/-- Maps with the same lookups have the same entries in some order. -/
theorem Similar.perm {m m' : AList (fun _ : K => V)} (h : m.Similar m') :
  m.entries.Perm m'.entries
  := by
  apply List.lookup_ext m.nodupKeys m'.nodupKeys
  intro k x
  rw [← lookup, ← lookup, h k]

theorem Similar.mem_iff {m m' : AList (fun _ : K => V)} (h : m.Similar m') (k : K) :
  k ∈ m ↔ k ∈ m'
  := by
  rw [← lookup_isSome, ← lookup_isSome, h k]

theorem Similar.size_eq {m m' : AList (fun _ : K => V)} (h : m.Similar m') :
  m.size = m'.size
  := h.perm.length_eq

end AList
