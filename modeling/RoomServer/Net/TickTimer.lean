import Mathlib.Algebra.Order.Ring.Nat
import RoomServer.Lib.EdgeTriggered
import RoomServer.Lib.Transition

/-!
# Timers

A `TickTimer` has a descriptor that counts the expirations of a periodic timer.  Its loop watches
it edge-triggered: the handler reads the count until it is empty, while the timer goes on, and
then calls the tick callback with the sum.  The timer can be stopped and started again between two
callbacks of the loop, or in one.

No expiration is lost or counted twice, and none of an earlier run is counted in a later one.
-/

namespace RoomServer

open EdgeTriggered (Source Turn)

inductive TickTimer.States where
  | stopped
  | running
  deriving DecidableEq

/-- A timer: `hasFd` says that it has a descriptor, `set` that expirations come, and `inCallback`
that the tick callback runs.  The timer has a record of the calls of the callback since it was
started. -/
structure TickTimer where
  state : TickTimer.States
  hasFd : Bool
  set : Bool
  source : Source Nat
  inCallback : Bool
  ticks : List Nat

namespace TickTimer

/-- A new timer; it has a descriptor if its arguments are valid and one can be created. -/
def new (hasFd : Bool) : TickTimer where
  state := .stopped
  hasFd := hasFd
  set := false
  source := .new .idle
  inCallback := false
  ticks := []

/-- Start a timer, with a count of zero.  `callable` says that there are a loop and a callback and
that this is the thread of the loop, and the others whether the timer can be set, added to the
loop, and reset when it cannot be added; otherwise it is closed. -/
def start (timer : TickTimer) (callable settime added reset : Bool) : TickTimer × Bool :=
  if timer.state = .running then
    (timer, false)
  else if !callable || !timer.hasFd || !settime then
    (timer, false)
  else if added then
    ({ timer with
      state := .running
      set := true
      source := (Source.new timer.source.turn).watch false
      ticks := [] }, true)
  else
    ({ timer with hasFd := reset, source := .new timer.source.turn, ticks := [] }, false)

/-- Stop a timer, in the thread of the loop: it is removed from the loop, and reset or closed. -/
def stop (timer : TickTimer) (callable removed reset : Bool) : TickTimer × Bool :=
  if !callable then
    (timer, false)
  else if timer.state = .stopped then
    (timer, true)
  else if !removed then
    (timer, false)
  else
    ({ timer with
      state := .stopped
      hasFd := reset
      set := false
      source := .new timer.source.turn
      ticks := [] }, reset)

/-- The loop comes to a report of the descriptor, which begins the handler of a running timer if
there is something to read. -/
def handleRead (timer : TickTimer) (epollIn : Bool) : TickTimer :=
  if timer.state ≠ .running || !epollIn then
    { timer with source := timer.source.giveUp }
  else
    { timer with source := timer.source.dispatch }

/-- The end of the handler: the callback is called unless nothing was read. -/
def callBack (timer : TickTimer) : TickTimer :=
  if timer.source.turn.taken = 0 then
    { timer with source := timer.source.finish }
  else
    { timer with
      source := timer.source.finish
      inCallback := true
      ticks := timer.ticks ++ [timer.source.turn.taken] }

/-! ### The system -/

/-- The steps: the calls of the loop's thread, expirations, and the turns of the loop. -/
inductive Label where
  | start (callable settime added reset : Bool)
  | stop (callable removed reset : Bool)
  | expire (n : Nat)
  | report
  | handleRead (epollIn : Bool)
  | read
  | readFailed
  | callBack
  | returns

/-- The handler does not read. -/
def Free (timer : TickTimer) : Prop := ∀ taken, timer.source.turn ≠ .reading taken

def Step (timer : TickTimer) (label : Label) (timer' : TickTimer) : Prop :=
  match label with
  | .start callable settime added reset =>
    timer.Free ∧ timer' = (timer.start callable settime added reset).1
  | .stop callable removed reset => timer.Free ∧ timer' = (timer.stop callable removed reset).1
  | .expire n =>
    timer.set = true ∧ timer' = { timer with source := timer.source.arrive n }
  | .report =>
    timer.source.turn = .idle ∧ timer.inCallback = false ∧ timer.source.ready = true
      ∧ timer.source.pending ≠ 0 ∧ timer' = { timer with source := timer.source.report }
  | .handleRead epollIn =>
    timer.source.turn = .reported ∧ timer' = timer.handleRead epollIn
  | .read =>
    ¬ timer.Free ∧ timer.source.pending ≠ 0
      ∧ timer' = { timer with source := timer.source.read timer.source.pending 0 }
  | .readFailed => ¬ timer.Free ∧ timer' = { timer with source := timer.source.giveUp }
  | .callBack => ¬ timer.Free ∧ timer.source.pending = 0 ∧ timer' = timer.callBack
  | .returns => timer' = { timer with inCallback := false }

def system : System TickTimer Label where
  Initial timer := ∃ hasFd, timer = new hasFd
  Step := Step

/-- The descriptor is reported when it can be read, and reading it does not fail. -/
def NoFailure (_ : TickTimer) (label : Label) : Prop :=
  label ≠ .handleRead false ∧ label ≠ .readFailed

/-! ### The invariant -/

structure Inv (timer : TickTimer) : Prop where
  sound : timer.source.Sound
  running : timer.state = .running → timer.hasFd = true ∧ timer.set = true
    ∧ timer.source.watched = true
  stopped : timer.state = .stopped → timer.set = false ∧ timer.source.watched = false
    ∧ timer.source.pending = 0 ∧ timer.Free
  /-- The callback was called with what was handed over, but for nothing. -/
  ticks : timer.ticks = timer.source.handed.filter (0 < ·)

variable {timer timer' : TickTimer}

theorem inv_new (hasFd : Bool) : (new hasFd).Inv := by
  constructor
  · apply Source.new_sound rfl
  · rintro ⟨⟩
  · intro _
    exact ⟨rfl, rfl, rfl, nofun⟩
  · rfl

theorem taken_of_free (h : timer.Free) : timer.source.turn.taken = 0 := by
  cases hturn : timer.source.turn with
  | idle => rfl
  | reported => rfl
  | reading taken => exact absurd hturn (h taken)

theorem Inv.start (h : timer.Inv) (hfree : timer.Free) (callable settime added reset : Bool) :
  (timer.start callable settime added reset).1.Inv
  := by
  have hnew : (Source.new timer.source.turn).Sound := Source.new_sound (taken_of_free hfree)
  rw [TickTimer.start]
  split
  · exact h
  split
  · exact h
  · next hrunning hcan =>
    simp only [Bool.or_eq_true, Bool.not_eq_true', not_or, Bool.not_eq_false] at hcan
    split
    · constructor
      · apply hnew.watch
        intro hpending
        exact absurd rfl hpending
      · intro _
        exact ⟨hcan.1.2, rfl, rfl⟩
      · rintro ⟨⟩
      · rfl
    · have hstopped : timer.state = .stopped := by
        cases hstate : timer.state with
        | stopped => rfl
        | running => exact absurd hstate hrunning
      constructor
      · exact hnew
      · intro hstate
        exact absurd hstate hrunning
      · intro _
        exact ⟨(h.stopped hstopped).1, rfl, rfl, hfree⟩
      · rfl

theorem Inv.stop (h : timer.Inv) (hfree : timer.Free) (callable removed reset : Bool) :
  (timer.stop callable removed reset).1.Inv
  := by
  rw [TickTimer.stop]
  split
  · exact h
  split
  · exact h
  split
  · exact h
  · constructor
    · apply Source.new_sound (taken_of_free hfree)
    · rintro ⟨⟩
    · intro _
      exact ⟨rfl, rfl, rfl, hfree⟩
    · rfl

/-- The source of a running timer goes on. -/
theorem Inv.go (h : timer.Inv) (hrunning : timer.state = .running) {source : Source Nat}
    (hsound : source.Sound) (hwatched : source.watched = timer.source.watched)
    (hhanded : source.handed = timer.source.handed) :
  Inv { timer with source }
  := by
  have hruns := h.running hrunning
  constructor
  · exact hsound
  · intro _
    exact ⟨hruns.1, hruns.2.1, hwatched.trans hruns.2.2⟩
  · intro hstopped
    rw [show timer.state = .stopped from hstopped] at hrunning
    cases hrunning
  · dsimp only
    rw [hhanded]
    exact h.ticks

theorem Inv.running_of (h : timer.Inv) (hbusy : timer.set = true ∨ ¬ timer.Free) :
  timer.state = .running
  := by
  cases hstate : timer.state with
  | running => rfl
  | stopped =>
    obtain ⟨hset, -, -, hfree⟩ := h.stopped hstate
    obtain hbusy | hbusy := hbusy
    · rw [hset] at hbusy
      cases hbusy
    · exact absurd hfree hbusy

theorem Inv.handleRead (h : timer.Inv) (hreported : timer.source.turn = .reported) :
  (timer.handleRead true).Inv
  := by
  rw [TickTimer.handleRead, Bool.not_true, Bool.or_false]
  by_cases hrunning : timer.state = .running
  · rw [if_neg (by simpa using hrunning)]
    apply h.go hrunning
    · apply h.sound.dispatch hreported
    · rfl
    · rfl
  · have hstopped : timer.state = .stopped := by
      cases hstate : timer.state with
      | stopped => rfl
      | running => exact absurd hstate hrunning
    obtain ⟨hset, hwatched, hpending, -⟩ := h.stopped hstopped
    rw [if_pos (by simpa using hrunning)]
    constructor
    · have hconserved := h.sound.conserved
      rw [hreported] at hconserved
      constructor
      · exact hconserved
      · intro hwatched'
        rw [show timer.source.watched = true from hwatched'] at hwatched
        cases hwatched
    · intro hstate
      exact absurd hstate hrunning
    · intro _
      exact ⟨hset, hwatched, hpending, nofun⟩
    · exact h.ticks

theorem Inv.callBack (h : timer.Inv) (hreads : ¬ timer.Free) (hempty : timer.source.pending = 0) :
  timer.callBack.Inv
  := by
  have hrunning := h.running_of (.inr hreads)
  have hruns := h.running hrunning
  have hsound := h.sound.finish hempty
  have hticks : timer.source.finish.handed.filter (0 < ·)
      = timer.ticks ++ if timer.source.turn.taken = 0 then [] else [timer.source.turn.taken] := by
    rw [Source.finish, List.filter_append, ← h.ticks]
    congr 1
    by_cases hnone : timer.source.turn.taken = 0
    · simp [hnone]
    · simp [hnone, Nat.pos_of_ne_zero hnone]
  rw [TickTimer.callBack]
  split
  · next hnone =>
    rw [if_pos hnone, List.append_nil] at hticks
    constructor
    · exact hsound
    · intro _
      exact hruns
    · intro hstopped
      rw [show timer.state = .stopped from hstopped] at hrunning
      cases hrunning
    · exact hticks.symm
  · next hsome =>
    rw [if_neg hsome] at hticks
    constructor
    · exact hsound
    · intro _
      exact hruns
    · intro hstopped
      rw [show timer.state = .stopped from hstopped] at hrunning
      cases hrunning
    · exact hticks.symm

theorem Inv.step (h : timer.Inv) {label : Label} (hok : timer.NoFailure label)
    (hstep : timer.Step label timer') :
  timer'.Inv
  := by
  cases label with
  | start callable settime added reset =>
    obtain ⟨hfree, rfl⟩ := hstep
    apply h.start hfree callable settime added reset
  | stop callable removed reset =>
    obtain ⟨hfree, rfl⟩ := hstep
    apply h.stop hfree callable removed reset
  | expire n =>
    obtain ⟨hset, rfl⟩ := hstep
    apply h.go (h.running_of (.inl hset))
    · apply h.sound.arrive n
    · rfl
    · rfl
  | report =>
    obtain ⟨hidle, -, hready, hpending, rfl⟩ := hstep
    have hrunning : timer.state = .running := by
      cases hstate : timer.state with
      | running => rfl
      | stopped => exact absurd (h.stopped hstate).2.2.1 hpending
    apply h.go hrunning
    · apply h.sound.report hidle
    · rfl
    · rfl
  | handleRead epollIn =>
    obtain ⟨hreported, rfl⟩ := hstep
    cases epollIn with
    | false => exact absurd rfl hok.1
    | true => apply h.handleRead hreported
  | read =>
    obtain ⟨hreads, -, rfl⟩ := hstep
    apply h.go (h.running_of (.inr hreads))
    · apply h.sound.read (Nat.add_zero _).symm
    · rfl
    · rfl
  | readFailed => exact absurd rfl hok.2
  | callBack =>
    obtain ⟨hreads, hempty, rfl⟩ := hstep
    apply h.callBack hreads hempty
  | returns =>
    cases hstep
    exact ⟨h.sound, h.running, h.stopped, h.ticks⟩

theorem inv_of_reachable (h : system.ReachableBy NoFailure timer) : timer.Inv := by
  apply h.invariant
  · rintro _ ⟨hasFd, rfl⟩
    apply inv_new hasFd
  · intro _ _ _ hinv hok hstep
    apply hinv.step hok hstep

/-! ### The ticks -/

/-- What the callback can rely on. -/
structure Counts (timer : TickTimer) : Prop where
  /-- An expiration since the start was told to the callback, is being read or is still to be. -/
  conserved : timer.state = .running → timer.source.arrived
    = timer.ticks.sum + timer.source.turn.taken + timer.source.pending
  /-- The callback is not called for nothing. -/
  positive : ∀ n ∈ timer.ticks, 0 < n
  /-- A loop that waits, and that the timer does not wake, has told all. -/
  prompt : timer.state = .running → timer.source.turn = .idle → timer.source.ready = false →
    timer.source.arrived = timer.ticks.sum
  /-- Nothing comes from a timer that is stopped. -/
  quiet : timer.state = .stopped → timer.set = false ∧ timer.source.pending = 0 ∧ timer.Free

theorem sum_filter_pos (ticks : List Nat) : (ticks.filter (0 < ·)).sum = ticks.sum := by
  induction ticks with
  | nil => rfl
  | cons n ticks ih =>
    rw [List.filter_cons]
    split
    · rw [List.sum_cons, List.sum_cons, ih]
    · next hzero =>
      have : n = 0 := by simpa using hzero
      rw [List.sum_cons, ih, this, Nat.zero_add]

/-- The callback is told of every expiration once, whenever the timer is started and stopped. -/
theorem counts_of_reachable (h : system.ReachableBy NoFailure timer) :
  timer.Counts
  := by
  have hinv := inv_of_reachable h
  have hsum : timer.ticks.sum = timer.source.handed.sum := by
    rw [hinv.ticks, sum_filter_pos]
  constructor
  · intro _
    rw [hsum]
    exact hinv.sound.conserved
  · intro n hn
    rw [hinv.ticks, List.mem_filter] at hn
    exact of_decide_eq_true hn.2
  · intro hrunning hidle hready
    rw [hsum]
    apply hinv.sound.all (hinv.running hrunning).2.2 hidle hready
  · intro hstopped
    obtain ⟨hset, -, hpending, hfree⟩ := hinv.stopped hstopped
    exact ⟨hset, hpending, hfree⟩

/-- A timer that expired again while its handler read. -/
theorem counted_while_reading :
  ∃ timer : TickTimer, timer.ticks = [3] ∧ timer.state = .running ∧ timer.Counts
  := by
  have h : system.ReachableBy NoFailure (new true) := .initial ⟨true, rfl⟩
  have hstarted := h.step (ℓ := Label.start true true true true) ⟨nofun, nofun⟩ ⟨nofun, rfl⟩
  have hexpired := hstarted.step (ℓ := Label.expire 2) ⟨nofun, nofun⟩ ⟨rfl, rfl⟩
  have hreported := hexpired.step (ℓ := Label.report) ⟨nofun, nofun⟩ ⟨rfl, rfl, rfl, nofun, rfl⟩
  have hhandled := hreported.step (ℓ := Label.handleRead true) ⟨nofun, nofun⟩ ⟨rfl, rfl⟩
  have hread := hhandled.step (ℓ := Label.read) ⟨nofun, nofun⟩ ⟨fun h => h _ rfl, nofun, rfl⟩
  have hagain := hread.step (ℓ := Label.expire 1) ⟨nofun, nofun⟩ ⟨rfl, rfl⟩
  have hread' := hagain.step (ℓ := Label.read) ⟨nofun, nofun⟩ ⟨fun h => h _ rfl, nofun, rfl⟩
  have hcalled := hread'.step (ℓ := Label.callBack) ⟨nofun, nofun⟩ ⟨fun h => h _ rfl, rfl, rfl⟩
  exact ⟨_, rfl, rfl, counts_of_reachable hcalled⟩

end TickTimer

end RoomServer
