import Mathlib.Data.List.Infix
import Mathlib.Logic.Function.Basic
import RoomServer.Lib.Transition

/-!
# Forums

The members of a forum have their places in groups.  What is said in a group is told at once to
all who are there.  A member that takes a place has heard nothing yet.

There is one record of what was said in a group, and every member of the group has heard the end
of it, from when it took its place.  So of two members of one group the one that is there for
longer has heard all that the other has, and in the same order.
-/

universe u v w

/-- The places of the members, the records of the groups, and what the members have heard since
they took their places. -/
structure Forum (γ : Type u) (κ : Type v) (μ : Type w) where
  place : κ → Option γ
  record : γ → List μ
  heard : κ → List μ

namespace Forum

variable {γ : Type u} {κ : Type v} {μ : Type w} [DecidableEq γ] {forum forum' : Forum γ κ μ}

/-- A message is told to all who are in the group. -/
def say (forum : Forum γ κ μ) (g : γ) (m : μ) : Forum γ κ μ :=
  { forum with
    record := Function.update forum.record g (forum.record g ++ [m])
    heard := fun c => if forum.place c = some g then forum.heard c ++ [m] else forum.heard c }

/-- Some members change their places. -/
def move (forum : Forum γ κ μ) (moved : κ → Bool) (place : κ → Option γ) : Forum γ κ μ :=
  { forum with
    place := fun c => if moved c then place c else forum.place c
    heard := fun c => if moved c then [] else forum.heard c }

inductive Step (forum : Forum γ κ μ) : Forum γ κ μ → Prop
  | say (g : γ) (m : μ) : Step forum (forum.say g m)
  | move (moved : κ → Bool) (place : κ → Option γ) : Step forum (forum.move moved place)

/-- In a new forum nobody has a place, and nothing was said. -/
def system : System (Forum γ κ μ) Unit where
  Initial forum :=
    (∀ c, forum.place c = none) ∧ (∀ g, forum.record g = []) ∧ ∀ c, forum.heard c = []
  Step forum _ forum' := forum.Step forum'

/-- Who has a place has heard the end of the record. -/
def Informed (forum : Forum γ κ μ) : Prop :=
  ∀ c g, forum.place c = some g → forum.heard c <:+ forum.record g

theorem Informed.step (h : forum.Informed) (hstep : forum.Step forum') : forum'.Informed := by
  cases hstep with
  | say g m =>
    intro c g' hplace
    have hsuffix := h c g' hplace
    rw [say]
    dsimp only
    rw [Function.update_apply]
    change forum.place c = some g' at hplace
    by_cases heq : g' = g
    · subst heq
      rw [if_pos hplace, if_pos rfl]
      apply List.suffix_append_self_iff.mpr hsuffix
    · rw [if_neg heq, if_neg fun h' => heq (Option.some.inj (hplace.symm.trans h'))]
      exact hsuffix
  | move moved place =>
    intro c g hplace
    rw [move] at hplace ⊢
    dsimp only at hplace ⊢
    split
    · apply List.nil_suffix
    · next hmoved =>
      rw [if_neg hmoved] at hplace
      apply h c g hplace

/-- Of the messages, those that are told to someone with the place. -/
def told (place : Option γ) (said : List (γ × μ)) : List μ :=
  said.filterMap fun x => if place = some x.1 then some x.2 else none

/-- The messages are told one after the other. -/
theorem leads_say (forum : Forum γ κ μ) (said : List (γ × μ)) :
  ∃ forum', system.Leads forum forum' ∧ forum'.place = forum.place
    ∧ ∀ c, forum'.heard c = forum.heard c ++ told (forum.place c) said
  := by
  induction said generalizing forum with
  | nil =>
    refine ⟨forum, .refl, rfl, ?_⟩
    intro c
    rw [told, List.filterMap_nil, List.append_nil]
  | cons x said ih =>
    obtain ⟨forum', hleads, hplace, hheard⟩ := ih (forum.say x.1 x.2)
    have hsay : system.Leads forum (forum.say x.1 x.2) :=
      System.Leads.refl.step (ℓ := ()) (.say x.1 x.2)
    refine ⟨forum', hsay.trans hleads, hplace, ?_⟩
    intro c
    rw [hheard, say, told, told]
    dsimp only
    by_cases hhere : forum.place c = some x.1
    · rw [if_pos hhere, List.filterMap_cons, if_pos hhere, List.append_assoc]
      rfl
    · rw [if_neg hhere, List.filterMap_cons, if_neg hhere]

end Forum
