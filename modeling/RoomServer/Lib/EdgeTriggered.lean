import Mathlib.Algebra.BigOperators.Group.List.Basic
import Mathlib.Tactic.ByContra

/-!
# Edge-triggered descriptors

A loop watches a descriptor edge-triggered: what comes there puts it on a ready list, a wait takes
it off and reports it, and nothing reports it again before more comes.  The handler of a report
reads until nothing is left, and hands over what it has read.

What comes is added up in a monoid: a number of events, a list of bytes or a multiset of signals.
What came was handed over, is being read or is still there, and what is there will be reported as
long as the descriptor is watched.  A handler that gives up breaks both.
-/

universe u

namespace EdgeTriggered

/-- What the loop does with a descriptor: nothing, it has a report of it, or the handler has read
this much. -/
inductive Turn (M : Type u)
  | idle
  | reported
  | reading (taken : M)

/-- What was read and not yet handed over. -/
def Turn.taken {M : Type u} [Zero M] : Turn M → M
  | .reading taken => taken
  | _ => 0

/-- A descriptor with a record of what came and of what was handed over. -/
structure Source (M : Type u) where
  pending : M
  watched : Bool
  ready : Bool
  turn : Turn M
  arrived : M
  handed : List M

namespace Source

variable {M : Type u} [AddMonoid M]

/-- A descriptor where nothing has come; the loop may still have a report of an earlier one. -/
def new (turn : Turn M) : Source M := ⟨0, false, false, turn, 0, []⟩

/-- Something comes. -/
def arrive (source : Source M) (m : M) : Source M :=
  { source with
    pending := source.pending + m
    ready := source.watched
    arrived := source.arrived + m }

/-- Begin to watch a descriptor: it is ready if something is there. -/
def watch (source : Source M) (ready : Bool) : Source M := { source with watched := true, ready }

/-- Watch a descriptor no longer. -/
def unwatch (source : Source M) : Source M := { source with watched := false, ready := false }

/-- A wait reports a descriptor. -/
def report (source : Source M) : Source M := { source with ready := false, turn := .reported }

/-- The handler of a report begins, if the descriptor is still watched. -/
def dispatch (source : Source M) : Source M :=
  { source with turn := if source.watched then .reading 0 else .idle }

/-- The handler reads something, and leaves the rest. -/
def read (source : Source M) (chunk rest : M) : Source M :=
  { source with pending := rest, turn := .reading (source.turn.taken + chunk) }

/-- The handler hands over what it has read. -/
def finish (source : Source M) : Source M :=
  { source with turn := .idle, handed := source.handed ++ [source.turn.taken] }

/-- The handler gives up. -/
def giveUp (source : Source M) : Source M := { source with turn := .idle }

/-- What holds of a descriptor whose handlers do not give up. -/
structure Sound (source : Source M) : Prop where
  /-- What came was handed over, is being read or is still there. -/
  conserved : source.arrived = source.handed.sum + source.turn.taken + source.pending
  /-- There is a reason to read what is there. -/
  noticed : source.watched = true → source.pending ≠ 0 →
    source.ready = true ∨ source.turn ≠ .idle

variable {source : Source M}

theorem new_sound {turn : Turn M} (hturn : turn.taken = 0) :
  (new turn).Sound
  := by
  constructor
  · simp [new, hturn]
  · intro hwatched
    cases hwatched

theorem Sound.arrive (h : source.Sound) (m : M) :
  (source.arrive m).Sound
  := by
  constructor
  · rw [Source.arrive]
    dsimp only
    rw [h.conserved, add_assoc]
  · intro hwatched _
    left
    exact hwatched

theorem Sound.watch (h : source.Sound) {ready : Bool} (hready : source.pending ≠ 0 → ready = true) :
  (source.watch ready).Sound
  := by
  constructor
  · exact h.conserved
  · intro _ hpending
    left
    apply hready hpending

theorem Sound.unwatch (h : source.Sound) :
  source.unwatch.Sound
  := by
  constructor
  · exact h.conserved
  · intro hwatched
    cases hwatched

theorem Sound.report (h : source.Sound) (hidle : source.turn = .idle) :
  source.report.Sound
  := by
  constructor
  · have hconserved := h.conserved
    rw [hidle] at hconserved
    exact hconserved
  · intro _ _
    right
    nofun

theorem Sound.dispatch (h : source.Sound) (hreported : source.turn = .reported) :
  source.dispatch.Sound
  := by
  have hconserved := h.conserved
  rw [hreported] at hconserved
  constructor
  · rw [Source.dispatch]
    dsimp only
    split <;> exact hconserved
  · intro (hwatched : source.watched = true) _
    right
    rw [Source.dispatch]
    dsimp only
    rw [if_pos hwatched]
    nofun

theorem Sound.read (h : source.Sound) {chunk rest : M} (hpending : source.pending = chunk + rest) :
  (source.read chunk rest).Sound
  := by
  constructor
  · have hconserved := h.conserved
    rw [hpending] at hconserved
    simpa [Source.read, Turn.taken, add_assoc] using hconserved
  · intro _ _
    right
    nofun

theorem Sound.finish (h : source.Sound) (hempty : source.pending = 0) :
  source.finish.Sound
  := by
  constructor
  · have hconserved := h.conserved
    rw [hempty] at hconserved
    rw [Source.finish]
    dsimp only
    rw [List.sum_append, List.sum_singleton, hempty, hconserved]
    simp [Turn.taken]
  · intro _ hpending
    exact absurd hempty hpending

/-- Everything was handed over when the loop has no report and would get none. -/
theorem Sound.all (h : source.Sound) (hwatched : source.watched = true)
    (hidle : source.turn = .idle) (hready : source.ready = false) :
  source.arrived = source.handed.sum
  := by
  have hempty : source.pending = 0 := by
    by_contra hpending
    obtain hready' | hturn := h.noticed hwatched hpending
    · rw [hready] at hready'
      cases hready'
    · apply hturn hidle
  simp [h.conserved, hempty, hidle, Turn.taken]

end Source

end EdgeTriggered
