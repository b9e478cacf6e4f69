import Mathlib.Algebra.Order.Group.Multiset
import RoomServer.Lib.EdgeTriggered
import RoomServer.Lib.Transition

/-!
# The signals that shut the server down

A `ShutdownSignal` blocks two signals and reads them from a descriptor, which the loop watches
edge-triggered.  The handler reads signal after signal until there is none, and asks the loop to
quit if there was one, or if the descriptor fails.

A signal that comes while the descriptor is watched, or waits since before, is never missed, and
nothing but a signal or a failure ends the loop.
-/

namespace RoomServer

open EdgeTriggered (Source Turn)

/-- The signals that are blocked. -/
inductive Signal where
  | sigint
  | sigterm
  deriving DecidableEq

inductive ShutdownSignal.States where
  | stopped
  | running
  deriving DecidableEq

/-- The handler of the signals of a process: `hasFd` says that the signals are blocked and that
there is a descriptor for them.  There is a record of whether the descriptor failed, and of
whether the loop was asked to quit. -/
structure ShutdownSignal where
  state : ShutdownSignal.States
  hasFd : Bool
  source : Source (Multiset Signal)
  failed : Bool
  quit : Bool

namespace ShutdownSignal

def new (hasFd : Bool) : ShutdownSignal where
  state := .stopped
  hasFd := hasFd
  source := .new .idle
  failed := false
  quit := false

/-- Add the descriptor to the loop: it is ready if a signal waits.  `callable` says that the loop
is valid and that this is its thread, and `added` whether the descriptor can be added. -/
def start (shutdown : ShutdownSignal) (callable added : Bool) : ShutdownSignal × Bool :=
  if shutdown.state = .running then
    (shutdown, false)
  else if !shutdown.hasFd || !callable || !added then
    (shutdown, false)
  else
    ({ shutdown with
      state := .running
      source := shutdown.source.watch (shutdown.source.pending ≠ 0) }, true)

def stop (shutdown : ShutdownSignal) (callable removed : Bool) : ShutdownSignal × Bool :=
  if !callable then
    (shutdown, false)
  else if shutdown.state = .stopped then
    (shutdown, true)
  else if !removed then
    (shutdown, false)
  else
    ({ shutdown with state := .stopped, source := shutdown.source.unwatch }, true)

/-- A signal is sent: one that waits already is not sent twice. -/
def send (shutdown : ShutdownSignal) (signal : Signal) : ShutdownSignal :=
  if signal ∈ shutdown.source.pending then
    shutdown
  else
    { shutdown with source := shutdown.source.arrive {signal} }

/-- The loop comes to a report of the descriptor, where there may be nothing to read but an
error. -/
def handleRead (shutdown : ShutdownSignal) (epollIn : Bool) : ShutdownSignal :=
  if !shutdown.source.watched || shutdown.state ≠ .running then
    { shutdown with source := shutdown.source.giveUp }
  else if !epollIn then
    { shutdown with source := shutdown.source.giveUp, failed := true, quit := true }
  else
    { shutdown with source := shutdown.source.dispatch }

/-- The end of the handler: the loop is to quit if a signal was read. -/
def finish (shutdown : ShutdownSignal) : ShutdownSignal :=
  { shutdown with
    source := shutdown.source.finish
    quit := shutdown.quit || shutdown.source.turn.taken ≠ 0 }

/-! ### The system -/

inductive Label where
  | start (callable added : Bool)
  | stop (callable removed : Bool)
  | send (signal : Signal)
  | report
  | handleRead (epollIn : Bool)
  | read (signal : Signal)
  | readFailed
  | finish

/-- The handler does not read. -/
def Free (shutdown : ShutdownSignal) : Prop := ∀ taken, shutdown.source.turn ≠ .reading taken

def Step (shutdown : ShutdownSignal) (label : Label) (shutdown' : ShutdownSignal) : Prop :=
  match label with
  | .start callable added =>
    shutdown.Free ∧ shutdown' = (shutdown.start callable added).1
  | .stop callable removed => shutdown.Free ∧ shutdown' = (shutdown.stop callable removed).1
  | .send signal => shutdown' = shutdown.send signal
  | .report =>
    shutdown.source.turn = .idle ∧ shutdown.source.watched = true
      ∧ shutdown' = { shutdown with source := shutdown.source.report }
  | .handleRead epollIn =>
    shutdown.source.turn = .reported ∧ shutdown' = shutdown.handleRead epollIn
  | .read signal =>
    ¬ shutdown.Free ∧ signal ∈ shutdown.source.pending
      ∧ shutdown' = { shutdown with
        source := shutdown.source.read {signal} (shutdown.source.pending.erase signal) }
  | .readFailed =>
    ¬ shutdown.Free
      ∧ shutdown' = { shutdown with source := shutdown.source.giveUp, failed := true, quit := true }
  | .finish => ¬ shutdown.Free ∧ shutdown.source.pending = 0 ∧ shutdown' = shutdown.finish

def system : System ShutdownSignal Label where
  Initial shutdown := ∃ hasFd, shutdown = new hasFd
  Step := Step

/-! ### The invariant -/

/-- What holds until the loop is to quit. -/
structure Listens (shutdown : ShutdownSignal) : Prop where
  works : shutdown.failed = false
  sound : shutdown.source.Sound
  nothing : shutdown.source.handed.sum = 0

structure Inv (shutdown : ShutdownSignal) : Prop where
  watched : shutdown.source.watched = true ↔ shutdown.state = .running
  listens : shutdown.quit = false → shutdown.Listens
  reason : shutdown.quit = true → shutdown.failed = true ∨ shutdown.source.arrived ≠ 0

variable {shutdown shutdown' : ShutdownSignal}

theorem inv_new (hasFd : Bool) : (new hasFd).Inv := by
  constructor
  · simp [new, Source.new]
  · intro _
    exact ⟨rfl, Source.new_sound rfl, rfl⟩
  · rintro ⟨⟩

/-- The source goes on, and the loop is not asked to quit. -/
theorem Inv.go (h : shutdown.Inv) {state : States} {source : Source (Multiset Signal)}
    (hwatched : source.watched = true ↔ state = .running)
    (hsound : shutdown.source.Sound → source.Sound)
    (hhanded : source.handed = shutdown.source.handed)
    (harrived : shutdown.source.arrived ≠ 0 → source.arrived ≠ 0) :
  Inv { shutdown with state, source }
  := by
  constructor
  · exact hwatched
  · intro hquit
    obtain ⟨hworks, hlistens, hnothing⟩ := h.listens hquit
    exact ⟨hworks, hsound hlistens, (congrArg List.sum hhanded).trans hnothing⟩
  · intro hquit
    apply (h.reason hquit).imp_right harrived

/-- The descriptor fails, and the loop is asked to quit. -/
theorem Inv.fail (h : shutdown.Inv) :
  Inv { shutdown with source := shutdown.source.giveUp, failed := true, quit := true }
  := by
  constructor
  · exact h.watched
  · rintro ⟨⟩
  · intro _
    left
    rfl

theorem Inv.start (h : shutdown.Inv) (callable added : Bool) :
  (shutdown.start callable added).1.Inv
  := by
  rw [ShutdownSignal.start]
  split
  · exact h
  split
  · exact h
  · apply h.go
    · simp [Source.watch]
    · intro hsound
      apply hsound.watch
      exact decide_eq_true
    · rfl
    · exact id

theorem Inv.stop (h : shutdown.Inv) (callable removed : Bool) :
  (shutdown.stop callable removed).1.Inv
  := by
  rw [ShutdownSignal.stop]
  split
  · exact h
  split
  · exact h
  split
  · exact h
  · apply h.go
    · simp [Source.unwatch]
    · exact Source.Sound.unwatch
    · rfl
    · exact id

theorem Inv.send (h : shutdown.Inv) (signal : Signal) :
  (shutdown.send signal).Inv
  := by
  rw [ShutdownSignal.send]
  split
  · exact h
  · apply h.go
    · exact h.watched
    · intro hsound
      apply hsound.arrive {signal}
    · rfl
    · intro _ hzero
      have hcard := congrArg Multiset.card hzero
      simp [Source.arrive] at hcard

theorem Inv.handleRead (h : shutdown.Inv) (hreported : shutdown.source.turn = .reported)
    (epollIn : Bool) :
  (shutdown.handleRead epollIn).Inv
  := by
  rw [ShutdownSignal.handleRead]
  split
  · next hlost =>
    have hnot : shutdown.source.watched ≠ true := by
      intro hwatched
      simp [hwatched, h.watched.mp hwatched] at hlost
    apply h.go
    · exact h.watched
    · intro hsound
      constructor
      · have hconserved := hsound.conserved
        rw [hreported] at hconserved
        exact hconserved
      · intro hwatched
        exact absurd hwatched hnot
    · rfl
    · exact id
  split
  · apply h.fail
  · apply h.go
    · exact h.watched
    · intro hsound
      apply hsound.dispatch hreported
    · rfl
    · exact id

theorem Inv.finish (h : shutdown.Inv) (hempty : shutdown.source.pending = 0) :
  shutdown.finish.Inv
  := by
  have hhanded : shutdown.source.finish.handed.sum
      = shutdown.source.handed.sum + shutdown.source.turn.taken := by
    rw [Source.finish, List.sum_append, List.sum_singleton]
  constructor
  · exact h.watched
  · intro hquit
    simp only [ShutdownSignal.finish, Bool.or_eq_false_iff, decide_eq_false_iff_not,
      not_not] at hquit
    obtain ⟨hworks, hsound, hnothing⟩ := h.listens hquit.1
    refine ⟨hworks, hsound.finish hempty, ?_⟩
    rw [ShutdownSignal.finish, hhanded, hnothing, hquit.2, add_zero]
  · intro hquit
    cases hbefore : shutdown.quit with
    | true => exact h.reason hbefore
    | false =>
      right
      simp only [ShutdownSignal.finish, hbefore, Bool.false_or, decide_eq_true_eq] at hquit
      obtain ⟨-, hsound, hnothing⟩ := h.listens hbefore
      change shutdown.source.arrived ≠ 0
      rw [hsound.conserved, hnothing, hempty, zero_add, add_zero]
      exact hquit

theorem Inv.step (h : shutdown.Inv) {label : Label} (hstep : shutdown.Step label shutdown') :
  shutdown'.Inv
  := by
  cases label with
  | start callable added =>
    obtain ⟨-, rfl⟩ := hstep
    apply h.start callable added
  | stop callable removed =>
    obtain ⟨-, rfl⟩ := hstep
    apply h.stop callable removed
  | send signal =>
    cases hstep
    apply h.send signal
  | report =>
    obtain ⟨hidle, -, rfl⟩ := hstep
    apply h.go
    · exact h.watched
    · intro hsound
      apply hsound.report hidle
    · rfl
    · exact id
  | handleRead epollIn =>
    obtain ⟨hreported, rfl⟩ := hstep
    apply h.handleRead hreported epollIn
  | read signal =>
    obtain ⟨-, hmem, rfl⟩ := hstep
    apply h.go
    · exact h.watched
    · intro hsound
      apply hsound.read
      rw [Multiset.singleton_add, Multiset.cons_erase hmem]
    · rfl
    · exact id
  | readFailed =>
    obtain ⟨-, rfl⟩ := hstep
    apply h.fail
  | finish =>
    obtain ⟨-, hempty, rfl⟩ := hstep
    apply h.finish hempty

/-! ### The end of the loop -/

/-- What a signal does. -/
structure Hears (shutdown : ShutdownSignal) : Prop where
  /-- A loop that waits, and that the descriptor does not wake, was asked to quit if there ever
  was a signal. -/
  heard : shutdown.state = .running → shutdown.source.turn = .idle →
    shutdown.source.ready = false → shutdown.source.arrived ≠ 0 → shutdown.quit = true
  /-- The loop is asked to quit for a signal, or because the descriptor failed. -/
  only : shutdown.quit = true → shutdown.failed = true ∨ shutdown.source.arrived ≠ 0

/-- No signal is missed, whenever it is sent: before the descriptor is watched, while its handler
reads, or while it is not watched. -/
theorem hears_of_reachable (h : system.Reachable shutdown) :
  shutdown.Hears
  := by
  have hinv : shutdown.Inv := by
    apply h.invariant
    · rintro _ ⟨hasFd, rfl⟩
      apply inv_new hasFd
    · intro _ _ _ hinv _ hstep
      apply hinv.step hstep
  constructor
  · intro hrunning hidle hready harrived
    by_contra hquit
    obtain ⟨-, hsound, hnothing⟩ := hinv.listens (Bool.not_eq_true _ ▸ hquit)
    rw [hsound.all (hinv.watched.mpr hrunning) hidle hready] at harrived
    exact harrived hnothing
  · exact hinv.reason

/-- A signal that was sent before the descriptor was watched, and another one while its handler
read. -/
theorem heard_early :
  ∃ shutdown : ShutdownSignal, shutdown.source.arrived = {.sigterm, .sigint}
    ∧ shutdown.quit = true ∧ shutdown.Hears
  := by
  have h : system.Reachable (new true) := .initial ⟨true, rfl⟩
  have hsent := h.step (ℓ := Label.send .sigterm) trivial rfl
  have hstarted := hsent.step (ℓ := Label.start true true) trivial ⟨nofun, rfl⟩
  have hreported := hstarted.step (ℓ := Label.report) trivial ⟨rfl, rfl, rfl⟩
  have hhandled := hreported.step (ℓ := Label.handleRead true) trivial ⟨rfl, rfl⟩
  have hread := hhandled.step (ℓ := Label.read .sigterm) trivial
    ⟨fun h => h _ rfl, by decide, rfl⟩
  have hagain := hread.step (ℓ := Label.send .sigint) trivial rfl
  have hread' := hagain.step (ℓ := Label.read .sigint) trivial ⟨fun h => h _ rfl, by decide, rfl⟩
  have hfinished := hread'.step (ℓ := Label.finish) trivial ⟨fun h => h _ rfl, by decide, rfl⟩
  exact ⟨_, by decide, by decide, hears_of_reachable hfinished⟩

end ShutdownSignal

end RoomServer
