import Mathlib.Logic.Function.Basic
import Mathlib.Logic.Basic

/-!
# Claims

A claim is what a token is good for: a seat, and possibly a connection from which the seat is
held.  In `Claims T S C` every seat is claimed by at most one token and every connection
holds at most one seat.  Claims change by four steps: a new token claims a free seat, from a
free connection; the connection of a claim is released; a claim without a connection is
bound to a free one; and a claim is given up.
-/

universe u v w

/-- What tokens claim: distinct seats, from distinct connections. -/
structure Claims (T : Type u) (S : Type v) (C : Type w) where
  claim : T → Option (S × Option C)
  seat_inj : ∀ {t t' s c c'}, claim t = some (s, c) → claim t' = some (s, c') → t = t'
  conn_inj : ∀ {t t' s s' c}, claim t = some (s, some c) → claim t' = some (s', some c) → t = t'

namespace Claims

variable {T : Type u} {S : Type v} {C : Type w}

/-- The seat is claimed by no token but possibly `t`. -/
def SeatFree (L : Claims T S C) (t : T) (s : S) : Prop :=
  ∀ {t' c}, L.claim t' = some (s, c) → t' = t

/-- The connection holds no seat. -/
def ConnFree (L : Claims T S C) (c : C) : Prop := ∀ t s, L.claim t ≠ some (s, some c)

/-- No claims. -/
def empty : Claims T S C where
  claim _ := none
  seat_inj h := by cases h
  conn_inj h := by cases h

/-- Claims to seats that are all different and without connections. -/
def ofSeats (seat : T → Option S)
    (hinj : ∀ {t t' s}, seat t = some s → seat t' = some s → t = t') : Claims T S C where
  claim t := (seat t).map fun s => (s, none)
  seat_inj h h' := by
    obtain ⟨s, hs, heq⟩ := Option.map_eq_some_iff.mp h
    obtain ⟨s', hs', heq'⟩ := Option.map_eq_some_iff.mp h'
    cases heq
    cases heq'
    apply hinj hs hs'
  conn_inj h := by
    obtain ⟨s, -, heq⟩ := Option.map_eq_some_iff.mp h
    cases heq

/-- The seat of a claim is claimed by no other token. -/
theorem seatFree_of_claim (L : Claims T S C) {t : T} {s : S} {c : Option C}
    (h : L.claim t = some (s, c)) :
  L.SeatFree t s
  := fun h' => L.seat_inj h' h

variable [DecidableEq T]

/-- The claims with that of `t` set, to a free seat from a free connection or none. -/
def put (L : Claims T S C) (t : T) (s : S) (c : Option C) (hs : L.SeatFree t s)
    (hc : ∀ x, c = some x → L.ConnFree x) : Claims T S C where
  claim := Function.update L.claim t (some (s, c))
  seat_inj := by
    intro t₁ t₂ s' c₁ c₂ h₁ h₂
    rw [Function.update_apply] at h₁ h₂
    split at h₁
    · next ht₁ =>
      cases h₁
      split at h₂
      · next ht₂ => rw [ht₁, ht₂]
      · rw [ht₁, hs h₂]
    · split at h₂
      · next ht₂ =>
        cases h₂
        rw [ht₂, hs h₁]
      · apply L.seat_inj h₁ h₂
  conn_inj := by
    intro t₁ t₂ s₁ s₂ x h₁ h₂
    rw [Function.update_apply] at h₁ h₂
    split at h₁
    · next ht₁ =>
      cases h₁
      split at h₂
      · next ht₂ => rw [ht₁, ht₂]
      · exact absurd h₂ (hc x rfl _ _)
    · split at h₂
      · cases h₂
        exact absurd h₁ (hc x rfl _ _)
      · apply L.conn_inj h₁ h₂

/-- The claims without that of `t`. -/
def drop (L : Claims T S C) (t : T) : Claims T S C where
  claim := Function.update L.claim t none
  seat_inj := by
    intro t₁ t₂ s c₁ c₂ h₁ h₂
    rw [Function.update_apply] at h₁ h₂
    split at h₁
    · cases h₁
    · split at h₂
      · cases h₂
      · apply L.seat_inj h₁ h₂
  conn_inj := by
    intro t₁ t₂ s₁ s₂ c h₁ h₂
    rw [Function.update_apply] at h₁ h₂
    split at h₁
    · cases h₁
    · split at h₂
      · cases h₂
      · apply L.conn_inj h₁ h₂

theorem claim_put (L : Claims T S C) {t : T} {s : S} {c : Option C} (hs : L.SeatFree t s)
    (hc : ∀ x, c = some x → L.ConnFree x) (t' : T) :
  (L.put t s c hs hc).claim t' = if t' = t then some (s, c) else L.claim t'
  := Function.update_apply L.claim t _ t'

theorem claim_drop (L : Claims T S C) (t t' : T) :
  (L.drop t).claim t' = if t' = t then none else L.claim t'
  := Function.update_apply L.claim t _ t'

/-- The seat of the claim that is set is claimed with its connection. -/
theorem exists_claim_put (L : Claims T S C) {t : T} {s : S} {c : Option C} (hs : L.SeatFree t s)
    (hc : ∀ x, c = some x → L.ConnFree x) (c' : Option C) :
  (∃ t', (L.put t s c hs hc).claim t' = some (s, c')) ↔ c = c'
  := by
  simp only [claim_put]
  constructor
  · rintro ⟨t', ht'⟩
    split at ht'
    · cases ht'
      rfl
    · next hne => exact absurd (hs ht') hne
  · rintro rfl
    exact ⟨t, if_pos rfl⟩

/-- The other seats are claimed as before, when `t` did not claim one of them. -/
theorem exists_claim_put_of_ne (L : Claims T S C) {t : T} {s : S} {c : Option C}
    (hs : L.SeatFree t s) (hc : ∀ x, c = some x → L.ConnFree x) {s' : S} (hne : s' ≠ s)
    (ht : ∀ c', L.claim t ≠ some (s', c')) (c' : Option C) :
  (∃ t', (L.put t s c hs hc).claim t' = some (s', c')) ↔ ∃ t', L.claim t' = some (s', c')
  := by
  simp only [claim_put]
  constructor
  · rintro ⟨t', ht'⟩
    split at ht'
    · cases ht'
      exact absurd rfl hne
    · exact ⟨t', ht'⟩
  · rintro ⟨t', ht'⟩
    refine ⟨t', ?_⟩
    rw [if_neg]
    · exact ht'
    · rintro rfl
      apply ht c' ht'

/-- The seat of the claim that is given up is not claimed any more. -/
theorem not_claim_drop (L : Claims T S C) {t : T} {s : S} {c : Option C}
    (ht : L.claim t = some (s, c)) (t' : T) (c' : Option C) :
  (L.drop t).claim t' ≠ some (s, c')
  := by
  intro ht'
  rw [claim_drop] at ht'
  split at ht'
  · cases ht'
  · next hne => apply hne (L.seat_inj ht' ht)

/-- The other seats are claimed as before. -/
theorem exists_claim_drop_of_ne (L : Claims T S C) {t : T} {s : S} {c : Option C}
    (ht : L.claim t = some (s, c)) {s' : S} (hne : s' ≠ s) (c' : Option C) :
  (∃ t', (L.drop t).claim t' = some (s', c')) ↔ ∃ t', L.claim t' = some (s', c')
  := by
  simp only [claim_drop]
  constructor
  · rintro ⟨t', ht'⟩
    split at ht'
    · cases ht'
    · exact ⟨t', ht'⟩
  · rintro ⟨t', ht'⟩
    refine ⟨t', ?_⟩
    rw [if_neg]
    · exact ht'
    · rintro rfl
      rw [ht, Option.some.injEq, Prod.mk.injEq] at ht'
      apply hne ht'.1.symm

/-- The steps by which claims change. -/
inductive Step (L : Claims T S C) : Claims T S C → Prop
  | enrol {t s c} (ht : L.claim t = none) (hs : L.SeatFree t s)
      (hc : ∀ x, some c = some x → L.ConnFree x) : L.Step (L.put t s (some c) hs hc)
  | bind {t s c} (ht : L.claim t = some (s, none)) (hs : L.SeatFree t s)
      (hc : ∀ x, some c = some x → L.ConnFree x) : L.Step (L.put t s (some c) hs hc)
  | release {t s c} (ht : L.claim t = some (s, some c)) (hs : L.SeatFree t s)
      (hc : ∀ x, none = some x → L.ConnFree x) : L.Step (L.put t s none hs hc)
  | drop {t s c} (ht : L.claim t = some (s, c)) : L.Step (L.drop t)
  | refl : L.Step L

end Claims
