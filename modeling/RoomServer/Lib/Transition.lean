import Mathlib.Logic.Basic

/-!
# Transition systems

A system has initial states and labelled steps.  `S.ReachableBy C s` says that `s` is reached
from an initial state by steps that all meet the condition `C`, a relation between the state
before a step and its label; `S.Reachable s` asks nothing of the steps.  What holds initially
and is preserved by every step that meets the condition holds of every state so reached, and
a map of states that turns steps into runs turns reachable states into reachable states.

What is inevitable comes to hold on every run of certain steps, and no such run ends before.

A machine is deterministic: a step takes an input and either fails or gives the next state
and an output.  A machine that follows another one step by step follows its runs, with the
same outputs.
-/

universe u v

/-- A labelled transition system. -/
structure System (σ : Type u) (ι : Type v) where
  Initial : σ → Prop
  Step : σ → ι → σ → Prop

namespace System

variable {σ τ : Type u} {ι κ : Type v} {S : System σ ι} {T : System τ κ}

/-- The states reached by steps that all meet the condition `C`. -/
inductive ReachableBy (S : System σ ι) (C : σ → ι → Prop) : σ → Prop
  | initial {s : σ} (h : S.Initial s) : S.ReachableBy C s
  | step {s s' : σ} {ℓ : ι} (hs : S.ReachableBy C s) (hℓ : C s ℓ) (h : S.Step s ℓ s') :
      S.ReachableBy C s'

/-- The states reached by any steps. -/
abbrev Reachable (S : System σ ι) : σ → Prop := S.ReachableBy fun _ _ => True

/-- What holds initially and is preserved by the steps that meet the condition holds of every
state reached by such steps. -/
theorem ReachableBy.invariant {C : σ → ι → Prop} {I : σ → Prop}
    (hinit : ∀ s, S.Initial s → I s)
    (hstep : ∀ s ℓ s', I s → C s ℓ → S.Step s ℓ s' → I s') {s : σ} (hs : S.ReachableBy C s) :
  I s
  := by
  induction hs with
  | initial h => apply hinit _ h
  | step _ hℓ h ih => apply hstep _ _ _ ih hℓ h

/-- The states reached from `s` by any steps. -/
inductive Leads (S : System σ ι) (s : σ) : σ → Prop
  | refl : S.Leads s s
  | step {s' s'' : σ} {ℓ : ι} (hs : S.Leads s s') (h : S.Step s' ℓ s'') : S.Leads s s''

theorem Reachable.leads {s s' : σ} (hs : S.Reachable s) (h : S.Leads s s') :
  S.Reachable s'
  := by
  induction h with
  | refl => exact hs
  | step _ h ih => exact .step ih trivial h

theorem Leads.trans {s s' s'' : σ} (h : S.Leads s s') (h' : S.Leads s' s'') :
  S.Leads s s''
  := by
  induction h' with
  | refl => exact h
  | step _ hstep ih => exact .step ih hstep

/-- What every step preserves is preserved by a run. -/
theorem Leads.preserves {I : σ → Prop} (hstep : ∀ s ℓ s', I s → S.Step s ℓ s' → I s')
    {s s' : σ} (h : S.Leads s s') (hs : I s) :
  I s'
  := by
  induction h with
  | refl => exact hs
  | step _ h ih => apply hstep _ _ _ ih h

/-- A map of states that turns initial states into reachable ones and steps into runs turns
reachable states into reachable states. -/
theorem ReachableBy.map {C : σ → ι → Prop} (abs : σ → τ)
    (hinit : ∀ s, S.Initial s → T.Reachable (abs s))
    (hstep : ∀ s ℓ s', S.Step s ℓ s' → T.Leads (abs s) (abs s')) {s : σ}
    (hs : S.ReachableBy C s) :
  T.Reachable (abs s)
  := by
  induction hs with
  | initial h => apply hinit _ h
  | step _ _ h ih => apply Reachable.leads ih (hstep _ _ _ h)

/-- A relation that turns initial states into reachable ones and steps into runs relates every
reachable state to a reachable state. -/
theorem Reachable.simulate {R : σ → τ → Prop}
    (hinit : ∀ s, S.Initial s → ∃ t, T.Reachable t ∧ R s t)
    (hstep : ∀ s ℓ s' t, R s t → S.Step s ℓ s' → ∃ t', T.Leads t t' ∧ R s' t') {s : σ}
    (hs : S.Reachable s) :
  ∃ t, T.Reachable t ∧ R s t
  := by
  induction hs with
  | initial h => apply hinit _ h
  | step _ _ h ih =>
    obtain ⟨t, ht, hR⟩ := ih
    obtain ⟨t', hleads, hR'⟩ := hstep _ _ _ t hR h
    exact ⟨t', ht.leads hleads, hR'⟩

/-- Whatever steps that meet the condition `C` come next, there always is a next one until `P`
holds. -/
inductive Inevitable (S : System σ ι) (C : σ → ι → Prop) (P : σ → Prop) : σ → Prop
  | now {s : σ} (h : P s) : S.Inevitable C P s
  | later {s : σ} (hsome : ∃ ℓ s', C s ℓ ∧ S.Step s ℓ s')
      (hall : ∀ ℓ s', C s ℓ → S.Step s ℓ s' → S.Inevitable C P s') : S.Inevitable C P s

/-- Where steps that meet the condition lower a rank, and where an invariant of theirs says that
there is such a step unless `P` holds, `P` is inevitable. -/
theorem inevitable_of_rank {C : σ → ι → Prop} {P I : σ → Prop} (rank : σ → Nat)
    (hsome : ∀ s, I s → ¬ P s → ∃ ℓ s', C s ℓ ∧ S.Step s ℓ s')
    (hstep : ∀ s ℓ s', I s → C s ℓ → S.Step s ℓ s' → I s' ∧ rank s' < rank s) {s : σ} (hs : I s) :
  S.Inevitable C P s
  := by
  induction hrank : rank s using Nat.strongRecOn generalizing s with
  | _ n ih =>
    by_cases hP : P s
    · exact .now hP
    · apply Inevitable.later
      · apply hsome s hs hP
      · intro ℓ s' hC h
        obtain ⟨hs', hlt⟩ := hstep s ℓ s' hs hC h
        apply ih (rank s') (hrank ▸ hlt) hs' rfl

end System

/-- A machine: a step may fail. -/
structure Machine (σ : Type u) (ι : Type v) (ο : Type v) where
  step : σ → ι → Option (σ × ο)

namespace Machine

variable {σ τ : Type u} {ι ο : Type v} {M : Machine σ ι ο} {N : Machine τ ι ο}

/-- A run over a list of inputs: the last state and the outputs. -/
def run (M : Machine σ ι ο) (s : σ) : List ι → Option (σ × List ο)
  | [] => some (s, [])
  | i :: is =>
    match M.step s i with
    | none => none
    | some (s', o) => (M.run s' is).map fun (s'', os) => (s'', o :: os)

/-- `M` follows the steps of `N` along the relation `R`: where `N` does not fail, neither does
`M`, the outputs are the same, and the states are related again. -/
def Follows (M : Machine σ ι ο) (N : Machine τ ι ο) (R : σ → τ → Prop) : Prop :=
  ∀ s t i t' o, R s t → N.step t i = some (t', o) → ∃ s', M.step s i = some (s', o) ∧ R s' t'

/-- What follows steps follows runs. -/
theorem Follows.run {R : σ → τ → Prop} (h : M.Follows N R) {s : σ} {t t' : τ} {is : List ι}
    {os : List ο} (hR : R s t) (hrun : N.run t is = some (t', os)) :
  ∃ s', M.run s is = some (s', os) ∧ R s' t'
  := by
  induction is generalizing s t os with
  | nil =>
    obtain ⟨rfl, rfl⟩ := Prod.mk.inj (Option.some.inj hrun)
    exact ⟨s, rfl, hR⟩
  | cons i is ih =>
    rw [Machine.run] at hrun
    cases hstep : N.step t i with
    | none =>
      rw [hstep] at hrun
      cases hrun
    | some next =>
      obtain ⟨t₁, o⟩ := next
      rw [hstep] at hrun
      obtain ⟨⟨t₂, os'⟩, hrest, heq⟩ := Option.map_eq_some_iff.mp hrun
      obtain ⟨rfl, rfl⟩ := Prod.mk.inj heq
      obtain ⟨s₁, hs₁, hR₁⟩ := h s t i t₁ o hR hstep
      obtain ⟨s', hs', hR'⟩ := ih hR₁ hrest
      refine ⟨s', ?_, hR'⟩
      rw [Machine.run, hs₁]
      simp only [hs', Option.map_some]

end Machine
