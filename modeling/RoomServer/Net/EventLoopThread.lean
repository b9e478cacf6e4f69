import Mathlib.Data.Fintype.Basic
import RoomServer.Net.EventLoop

/-!
# The threads of the event loops

An `EventLoopThread` starts a thread, which makes a loop, shows it to the owner of the object and
runs it.  The owner waits on a condition until it sees the loop, or sees that there is none.  The
destructor asks the loop to quit, if there still is one, and waits for the end of the thread.

The loop lives on the stack of its thread, so that the owner must not use it behind its end.  The
steps of the two threads interleave; each access to the mutex, to what it protects and to the
condition is a step of its own.  Unless a wait of the loop fails, the owner never uses a loop that
is gone, and neither a start nor a destructor is ever stuck.
-/

namespace RoomServer

/-- The two threads. -/
inductive Party where
  | owner
  | worker
  deriving DecidableEq

/-- Where the owner is: in no call, in `startLoop` (before it locks the mutex, at its condition,
asleep, before it joins a thread without a loop), or in the destructor (before it locks the mutex,
before it asks the loop to quit, before the write that wakes the loop, before it joins the
thread, and behind it). -/
inductive OwnerPc where
  | idle
  | lock
  | check
  | asleep
  | joinFailed
  | lockToQuit
  | quit
  | wakeup
  | join
  | destroyed
  deriving DecidableEq

/-- Where the thread is: not there yet, before it makes the loop, on its way out without a valid
loop, on its way to show the loop, before `loop`, in it, and on its way out behind it. -/
inductive WorkerPc where
  | none
  | create
  | lockFailed
  | setFailed
  | notifyFailed
  | lockLoop
  | setLoop
  | notifyLoop
  | run
  | running
  | lockEnd
  | clear
  | exit
  | done
  deriving DecidableEq

instance : Fintype OwnerPc where
  elems := {.idle, .lock, .check, .asleep, .joinFailed, .lockToQuit, .quit, .wakeup, .join,
    .destroyed}
  complete := by
    intro owner
    cases owner <;> decide

/-- The owner holds the mutex. -/
def OwnerPc.holds : OwnerPc → Bool
  | .check | .quit | .wakeup => true
  | _ => false

/-- The thread holds the mutex. -/
def WorkerPc.holds : WorkerPc → Bool
  | .setFailed | .setLoop | .clear => true
  | _ => false

/-- The loop is shown to the owner. -/
def WorkerPc.shows : WorkerPc → Bool
  | .notifyLoop | .run | .running | .lockEnd | .clear => true
  | _ => false

/-- The loop is on the stack of the thread. -/
def WorkerPc.lives : WorkerPc → Bool
  | .none | .create | .done => false
  | _ => true

/-- The thread is on its way to notify the owner of a loop, or of its failure. -/
def WorkerPc.starts (failed : Bool) : WorkerPc → Bool
  | .create | .lockFailed | .setFailed | .lockLoop | .setLoop | .notifyLoop => !failed
  | .notifyFailed => failed
  | _ => false

/-- The loop is there, and is valid. -/
def WorkerPc.succeeded : WorkerPc → Bool
  | .lockLoop | .setLoop | .notifyLoop | .run | .running | .lockEnd | .clear | .exit => true
  | _ => false

/-- The loop runs, or is about to. -/
def WorkerPc.serves : WorkerPc → Bool
  | .notifyLoop | .run | .running => true
  | _ => false

theorem WorkerPc.shows_of_serves {worker : WorkerPc} (h : worker.serves = true) :
  worker.shows = true
  := by
  cases worker <;> first | rfl | cases h

theorem WorkerPc.lives_of_shows {worker : WorkerPc} (h : worker.shows = true) :
  worker.lives = true
  := by
  cases worker <;> first | rfl | cases h

/-- The object with its two threads.  `loopShown` says that `loop_` is not null, `result` that
the owner has the pointer to the loop, and `dangling` that a loop that is gone was used. -/
structure EventLoopThread (F : Type) where
  started : Bool
  startFailed : Bool
  mutex : Option Party
  loopShown : Bool
  loop : Option (EventLoop Party F)
  owner : OwnerPc
  worker : WorkerPc
  result : Bool
  dangling : Bool

/-- The thread has returned from `loop`. -/
def LoopPc.isOutside {F : Type} : LoopPc F → Bool
  | .outside => true
  | _ => false

namespace EventLoopThread

variable {F : Type}

def new : EventLoopThread F where
  started := false
  startFailed := false
  mutex := none
  loopShown := false
  loop := none
  owner := .idle
  worker := .none
  result := false
  dangling := false

/-! ### The owner -/

/-- Use the loop through a pointer. -/
def useLoop (thread : EventLoopThread F) (f : EventLoop Party F → EventLoop Party F) :
    EventLoopThread F :=
  match thread.loop with
  | some loop => { thread with loop := some (f loop) }
  | none => { thread with dangling := true }

/-- Start the thread, once. -/
def startLoop (thread : EventLoopThread F) : EventLoopThread F :=
  if thread.started then
    thread
  else
    { thread with started := true, worker := .create, owner := .lock }

/-- The owner goes on in `startLoop` or in the destructor. -/
def ownerStep (thread : EventLoopThread F) : Option (EventLoopThread F) :=
  match thread.owner with
  | .lock =>
    if thread.mutex = none then
      some { thread with mutex := some .owner, owner := .check }
    else
      none
  | .check =>
    if thread.loopShown || thread.startFailed then
      some { thread with
        mutex := none
        result := thread.loopShown
        owner := if thread.startFailed then .joinFailed else .idle }
    else
      some { thread with mutex := none, owner := .asleep }
  | .joinFailed => if thread.worker = .done then some { thread with owner := .idle } else none
  | .lockToQuit =>
    if thread.mutex = none then
      some { thread with mutex := some .owner, owner := .quit }
    else
      none
  | .quit =>
    if thread.loopShown then
      some { thread.useLoop fun loop => loop.quit .owner with owner := .wakeup }
    else
      some { thread with mutex := none, owner := .join }
  | .wakeup =>
    some { thread.useLoop fun loop => loop.wakeup .owner with mutex := none, owner := .join }
  | .join =>
    if thread.worker = .none ∨ thread.worker = .done then
      some { thread with owner := .destroyed }
    else
      none
  | .idle | .asleep | .destroyed => none

/-! ### The thread -/

/-- Wake the owner if it sleeps. -/
def notifyOne (thread : EventLoopThread F) : EventLoopThread F :=
  { thread with owner := if thread.owner = .asleep then .lock else thread.owner }

/-- The thread goes on outside of its loop. -/
def workerStep (thread : EventLoopThread F) : Option (EventLoopThread F) :=
  match thread.worker with
  | .lockFailed =>
    if thread.mutex = none then
      some { thread with mutex := some .worker, worker := .setFailed }
    else
      none
  | .setFailed =>
    some { thread with startFailed := true, mutex := none, worker := .notifyFailed }
  | .notifyFailed => some { thread.notifyOne with loop := none, worker := .done }
  | .lockLoop =>
    if thread.mutex = none then
      some { thread with mutex := some .worker, worker := .setLoop }
    else
      none
  | .setLoop => some { thread with loopShown := true, mutex := none, worker := .notifyLoop }
  | .notifyLoop => some { thread.notifyOne with worker := .run }
  | .run => some { thread.useLoop fun loop => loop.loop .worker with worker := .running }
  | .running =>
    if thread.loop.any fun loop => loop.pc.isOutside then
      some { thread with worker := .lockEnd }
    else
      none
  | .lockEnd =>
    if thread.mutex = none then
      some { thread with mutex := some .worker, worker := .clear }
    else
      none
  | .clear => some { thread with loopShown := false, mutex := none, worker := .exit }
  | .exit => some { thread with loop := none, worker := .done }
  | .none | .create | .done => none

/-! ### The system -/

/-- The calls and steps of the two threads that have to do with the loop itself; nothing but the
destructor asks it to quit. -/
def Uses (party : Party) : EventLoop.Label Party F → Prop
  | .queueInLoop t _ | .runInLoop t _ | .wakeup t => t = party
  | .advance _ => party = .worker
  | .quit _ | .loop _ => False

/-- The steps: the two calls of the owner, its use of the loop and its other steps, a wake-up for
no reason, and those of the thread. -/
inductive Label (F : Type) where
  | startLoop
  | destroy
  | use (label : EventLoop.Label Party F)
  | owner
  | spurious
  | create (valid : Bool) (maxEvents : Nat)
  | worker
  | inLoop (label : EventLoop.Label Party F)

def Step (thread : EventLoopThread F) (label : Label F) (thread' : EventLoopThread F) : Prop :=
  match label with
  | .startLoop => thread.owner = .idle ∧ thread' = thread.startLoop
  | .destroy =>
    thread.owner = .idle ∧ (∀ loop, thread.loop = some loop → loop.inWakeup .owner = false)
      ∧ thread' = { thread with owner := .lockToQuit }
  | .use label =>
    thread.owner = .idle ∧ thread.result = true ∧ Uses .owner label
      ∧ match thread.loop with
        | none => thread' = { thread with dangling := true }
        | some loop =>
          ∃ loop', loop.step label = some loop' ∧ thread' = { thread with loop := some loop' }
  | .owner => thread.ownerStep = some thread'
  | .spurious => thread.owner = .asleep ∧ thread' = { thread with owner := .lock }
  | .create valid maxEvents =>
    thread.worker = .create
      ∧ thread' = { thread with
        loop := some (.new .worker valid maxEvents)
        worker := if valid then .lockLoop else .lockFailed }
  | .worker => thread.workerStep = some thread'
  | .inLoop label =>
    thread.worker = .running ∧ Uses .worker label
      ∧ ∃ loop loop', thread.loop = some loop ∧ loop.step label = some loop'
        ∧ thread' = { thread with loop := some loop' }

def system : System (EventLoopThread F) (Label F) where
  Initial thread := thread = new
  Step := Step

/-- No wait of the loop fails. -/
def NoFailure (_ : EventLoopThread F) : Label F → Prop
  | .inLoop (.advance .failed) => False
  | _ => True

/-! ### The invariant -/

/-- Where the thread can be while the owner is at a place, by what has become of the start. -/
def meets (started failed result : Bool) (worker : WorkerPc) : OwnerPc → Bool
  | .lock | .check =>
    started && !result
      && (worker.starts failed || !failed && (worker = .run || worker = .running)
        || failed && worker = .done)
  | .asleep => started && !result && worker.starts failed
  | .joinFailed => started && !result && failed && (worker = .notifyFailed || worker = .done)
  | .idle | .lockToQuit | .quit =>
    !started && !failed && !result && worker = .none
      || started && failed && !result && worker = .done
      || started && !failed && result && worker.serves
  | .wakeup => started && !failed && result && (worker.serves || worker = .lockEnd)
  | .join =>
    !started && !failed && !result && worker = .none
      || started && failed && !result && worker = .done
      || started && !failed && result
        && (worker.serves || worker = .lockEnd || worker = .clear || worker = .exit
          || worker = .done)
  | .destroyed =>
    !started && !failed && !result && worker = .none
      || started && failed && !result && worker = .done
      || started && !failed && result && worker = .done

/-- What holds of a loop that is there. -/
structure Hosts (thread : EventLoopThread F) (loop : EventLoop Party F) : Prop where
  sound : loop.Sound
  owner : loop.ownerThreadId = .worker
  room : 0 < loop.maxEvents
  valid : loop.valid = thread.worker.succeeded
  /-- The owner is to wake the loop only within its calls. -/
  calls : loop.inWakeup .owner = true → thread.owner = .wakeup
    ∨ thread.owner = .idle ∧ thread.result = true
  /-- The loop is asked to quit by the destructor. -/
  quits : loop.quit_ = (thread.owner = .wakeup || thread.owner = .join && thread.result)
  wakes : thread.owner = .wakeup → loop.inWakeup .owner = true
  /-- The thread leaves its loop when it is to quit. -/
  outside : loop.pc = .outside → thread.worker = .running → loop.quit_ = true
  inside : loop.pc ≠ .outside → thread.worker = .running

structure Inv (thread : EventLoopThread F) : Prop where
  sane : thread.dangling = false
  ownerHolds : thread.mutex = some .owner ↔ thread.owner.holds = true
  workerHolds : thread.mutex = some .worker ↔ thread.worker.holds = true
  shown : thread.loopShown = thread.worker.shows
  there : thread.loop.isSome = thread.worker.lives
  meets : meets thread.started thread.startFailed thread.result thread.worker thread.owner = true
  hosts : ∀ loop, thread.loop = some loop → thread.Hosts loop

variable {thread thread' : EventLoopThread F}

theorem inv_of_new : Inv (new : EventLoopThread F) := by
  constructor <;> simp [new, OwnerPc.holds, WorkerPc.holds, WorkerPc.shows, WorkerPc.lives,
    EventLoopThread.meets]

/-! ### The steps of the owner -/

/-- The owner goes on, and does not touch the loop. -/
theorem Inv.ownerMove (h : thread.Inv) {owner : OwnerPc} {mutex : Option Party} {result : Bool}
    (hquits : thread.worker.lives = true →
      (thread.owner = .wakeup || thread.owner = .join && thread.result)
        = (owner = .wakeup || owner = .join && result))
    (hwakes : owner = .wakeup → thread.owner = .wakeup)
    (hcalls : thread.owner = .wakeup ∨ thread.owner = .idle ∧ thread.result = true →
      ∀ loop, thread.loop = some loop → loop.inWakeup .owner = true →
        owner = .wakeup ∨ owner = .idle ∧ result = true)
    (howner : mutex = some .owner ↔ owner.holds = true)
    (hworker : mutex = some .worker ↔ thread.worker.holds = true)
    (hmeets : EventLoopThread.meets thread.started thread.startFailed result thread.worker owner
      = true) :
  Inv { thread with owner, mutex, result }
  where
  sane := h.sane
  ownerHolds := howner
  workerHolds := hworker
  shown := h.shown
  there := h.there
  meets := hmeets
  hosts := by
    intro loop hloop
    have hhosts := h.hosts loop hloop
    constructor
    · exact hhosts.sound
    · exact hhosts.owner
    · exact hhosts.room
    · exact hhosts.valid
    · intro hcall
      apply hcalls (hhosts.calls hcall) loop hloop hcall
    · apply hhosts.quits.trans (hquits _)
      rw [← h.there, hloop]
      rfl
    · intro hpc
      apply hhosts.wakes (hwakes hpc)
    · exact hhosts.outside
    · exact hhosts.inside

/-- The mutex is free. -/
theorem Inv.free (h : thread.Inv) (hmutex : thread.mutex = none) :
  thread.owner.holds = false ∧ thread.worker.holds = false
  := by
  have howner := h.ownerHolds
  have hworker := h.workerHolds
  rw [hmutex] at howner hworker
  constructor
  · simpa using howner
  · simpa using hworker

/-- The owner holds the mutex. -/
theorem Inv.owned (h : thread.Inv) (hholds : thread.owner.holds = true) :
  thread.worker.holds = false
  := by
  have hworker := h.workerHolds
  rw [h.ownerHolds.mpr hholds] at hworker
  simpa using hworker

/-- The owner goes on to a place where it does not hold the mutex. -/
theorem Inv.ownerStay (h : thread.Inv) {owner : OwnerPc} (hold : thread.owner.holds = false)
    (hnew : owner.holds = false) (hjoin : thread.owner ≠ .join) (hjoin' : owner ≠ .join)
    (hcalls : thread.owner = .idle → ∀ loop, thread.loop = some loop →
      loop.inWakeup .owner = false)
    (hmeets : EventLoopThread.meets thread.started thread.startFailed thread.result thread.worker
      owner = true) :
  Inv { thread with owner }
  := by
  have hwakeup : ∀ {owner : OwnerPc}, owner.holds = false → owner ≠ .wakeup := by
    rintro _ hfalse rfl
    cases hfalse
  apply h.ownerMove
  · simp [hwakeup hold, hwakeup hnew, hjoin, hjoin']
  · intro hpc
    exact absurd hpc (hwakeup hnew)
  · rintro (hpc | ⟨hpc, -⟩) loop hloop hcall
    · exact absurd hpc (hwakeup hold)
    · rw [hcalls hpc loop hloop] at hcall
      cases hcall
  · rw [h.ownerHolds, hold, hnew]
  · exact h.workerHolds
  · exact hmeets

/-- What the owner finds at its condition. -/
theorem meets_of_check {started failed result : Bool} {worker : WorkerPc}
    (hmeets : EventLoopThread.meets started failed result worker .check = true)
    (hholds : worker.holds = false) :
  EventLoopThread.meets started failed (if worker.shows || failed then worker.shows else result)
      worker (if worker.shows || failed then if failed then .joinFailed else .idle else .asleep)
    = true
  := by
  cases started <;> cases failed <;> cases result <;> cases worker <;>
    simp_all [EventLoopThread.meets, WorkerPc.starts, WorkerPc.shows, WorkerPc.holds,
      WorkerPc.serves]

/-- The owner can call the loop while it is not about to wake it. -/
theorem Hosts.canCall {loop : EventLoop Party F} (h : thread.Hosts loop)
    (hcalls : loop.inWakeup .owner = false) :
  loop.CanCall .owner
  := by
  use hcalls
  intro hthread
  cases hpc : loop.pc with
  | outside => trivial
  | _ =>
    have hrunning := (h.sound.running (by simp [hpc])).2
    rw [← hthread, h.owner] at hrunning
    cases hrunning

/-- The owner uses the loop. -/
theorem useLoop_of_some {loop : EventLoop Party F} (hloop : thread.loop = some loop)
    (f : EventLoop Party F → EventLoop Party F) :
  thread.useLoop f = { thread with loop := some (f loop) }
  := by
  rw [useLoop, hloop]

/-- The loop is there. -/
theorem Inv.exists_loop (h : thread.Inv) (hlives : thread.worker.lives = true) :
  ∃ loop, thread.loop = some loop ∧ thread.Hosts loop
  := by
  obtain ⟨loop, hloop⟩ := Option.isSome_iff_exists.mp (h.there.trans hlives)
  exact ⟨loop, hloop, h.hosts loop hloop⟩

/-- The owner asks the loop that it finds to quit. -/
theorem Inv.ownerQuit (h : thread.Inv) (hpc : thread.owner = .quit)
    (hshown : thread.loopShown = true) :
  Inv { thread.useLoop fun loop => loop.quit .owner with owner := .wakeup }
  := by
  have hmeets := h.meets
  have hshows : thread.worker.shows = true := by rw [← h.shown, hshown]
  have hresult : thread.started = true ∧ thread.startFailed = false ∧ thread.result = true
      ∧ thread.worker.serves = true := by
    rw [hpc] at hmeets
    revert hshows
    grind [EventLoopThread.meets, WorkerPc.shows]
  obtain ⟨hstarted, hfailed, hresult, hserves⟩ := hresult
  obtain ⟨loop, hloop, hhosts⟩ := h.exists_loop (WorkerPc.lives_of_shows hshows)
  have hcan : loop.CanCall .owner := by
    apply hhosts.canCall
    by_contra hcall
    obtain hwakeup | ⟨hidle, -⟩ := hhosts.calls (Bool.not_eq_false _ ▸ hcall)
    · rw [hpc] at hwakeup
      cases hwakeup
    · rw [hpc] at hidle
      cases hidle
  have hother : loop.isInLoopThread .owner = false := by
    rw [EventLoop.isInLoopThread, hhosts.owner]
    rfl
  rw [useLoop_of_some hloop]
  constructor
  · exact h.sane
  · apply iff_of_true (h.ownerHolds.mpr (by rw [hpc]; rfl)) rfl
  · exact h.workerHolds
  · exact h.shown
  · rw [← h.there, hloop]
    rfl
  · simp [EventLoopThread.meets, hstarted, hfailed, hresult, hserves]
  · rintro _ ⟨⟩
    constructor
    · apply hhosts.sound.quit hcan
    · exact hhosts.owner
    · exact hhosts.room
    · exact hhosts.valid
    · intro _
      left
      rfl
    · rfl
    · intro _
      rw [EventLoop.quit]
      dsimp only
      rw [hother]
      simp
    · intro _ _
      rfl
    · exact hhosts.inside

/-- The owner wakes the loop that is to quit. -/
theorem Inv.ownerWakeup (h : thread.Inv) (hpc : thread.owner = .wakeup) :
  Inv { thread.useLoop fun loop => loop.wakeup .owner with mutex := none, owner := .join }
  := by
  have hmeets := h.meets
  have hholds := h.owned (by rw [hpc]; rfl)
  rw [hpc] at hmeets
  simp only [EventLoopThread.meets, Bool.and_eq_true, Bool.not_eq_true', Bool.or_eq_true,
    decide_eq_true_eq] at hmeets
  obtain ⟨⟨⟨hstarted, hfailed⟩, hresult⟩, hplace⟩ := hmeets
  have hshows : thread.worker.shows = true := by
    obtain hserves | hend := hplace
    · apply WorkerPc.shows_of_serves hserves
    · rw [hend]
      rfl
  obtain ⟨loop, hloop, hhosts⟩ := h.exists_loop (WorkerPc.lives_of_shows hshows)
  rw [useLoop_of_some hloop]
  constructor
  · exact h.sane
  · simp [OwnerPc.holds]
  · simp [hholds]
  · exact h.shown
  · rw [← h.there, hloop]
    rfl
  · simp only [EventLoopThread.meets, hstarted, hfailed, hresult]
    obtain hserves | hend := hplace
    · simp [hserves]
    · simp [hend]
  · rintro _ ⟨⟩
    constructor
    · apply hhosts.sound.wakeup .owner
    · exact hhosts.owner
    · exact hhosts.room
    · exact hhosts.valid
    · simp [EventLoop.wakeup]
    · have hquits := hhosts.quits
      rw [hpc] at hquits
      simpa [EventLoop.wakeup, hresult] using hquits
    · rintro ⟨⟩
    · exact hhosts.outside
    · exact hhosts.inside

/-- The owner takes the free mutex, to look for the loop or to ask it to quit. -/
theorem Inv.ownerLock (h : thread.Inv) (hmutex : thread.mutex = none)
    (hpc : thread.owner = .lock ∨ thread.owner = .lockToQuit) :
  Inv { thread with
    mutex := some .owner, owner := if thread.owner = .lock then .check else .quit }
  := by
  have hmeets := h.meets
  obtain hpc | hpc := hpc <;>
    rw [hpc] at hmeets <;>
    rw [hpc] <;>
    apply h.ownerMove
  all_goals first
    | exact hmeets
    | simp [hpc, OwnerPc.holds, (h.free hmutex).2]

/-- The owner looks for the loop, and goes on when it is there or when it failed. -/
theorem Inv.ownerCheck (h : thread.Inv) (hpc : thread.owner = .check)
    (hstep : thread.ownerStep = some thread') :
  thread'.Inv
  := by
  have hmeets := h.meets
  have hholds := h.owned (by rw [hpc]; rfl)
  rw [hpc] at hmeets
  have hmeets' := meets_of_check hmeets hholds
  rw [← h.shown] at hmeets'
  rw [EventLoopThread.ownerStep, hpc] at hstep
  dsimp only at hstep
  split at hstep
  · next hwoken =>
    cases hstep
    rw [if_pos hwoken, if_pos hwoken] at hmeets'
    apply h.ownerMove
    · intro _
      simp only [hpc]
      split <;> rfl
    · split <;> rintro ⟨⟩
    · simp [hpc]
    · split <;> simp [OwnerPc.holds]
    · simp [hholds]
    · exact hmeets'
  · next hwait =>
    cases hstep
    rw [if_neg hwait, if_neg hwait] at hmeets'
    apply h.ownerMove
    · simp [hpc]
    · rintro ⟨⟩
    · simp [hpc]
    · simp [OwnerPc.holds]
    · simp [hholds]
    · exact hmeets'

/-- The owner has joined the thread whose loop failed. -/
theorem Inv.ownerJoinFailed (h : thread.Inv) (hpc : thread.owner = .joinFailed)
    (hdone : thread.worker = .done) :
  Inv { thread with owner := .idle }
  := by
  have hmeets := h.meets
  rw [hpc, hdone] at hmeets
  apply h.ownerStay
  · rw [hpc]
    rfl
  · rfl
  · simp [hpc]
  · simp
  · simp [hpc]
  · rw [hdone]
    grind [EventLoopThread.meets]

/-- The owner finds no loop that it could ask to quit. -/
theorem Inv.ownerQuitNone (h : thread.Inv) (hpc : thread.owner = .quit)
    (hshown : thread.loopShown = false) :
  Inv { thread with mutex := none, owner := .join }
  := by
  have hmeets := h.meets
  have hholds := h.owned (by rw [hpc]; rfl)
  rw [h.shown] at hshown
  rw [hpc] at hmeets
  have hresult : thread.result = false := by
    have hserves : thread.worker.serves = false := by
      by_contra hserves
      rw [WorkerPc.shows_of_serves (Bool.not_eq_false _ ▸ hserves)] at hshown
      cases hshown
    grind [EventLoopThread.meets]
  apply h.ownerMove
  · simp [hpc, hresult]
  · rintro ⟨⟩
  · simp [hpc]
  · simp [OwnerPc.holds]
  · simp [hholds]
  · revert hmeets
    rw [hresult]
    grind [EventLoopThread.meets]

/-- The thread has ended, if there was one. -/
theorem Inv.ownerJoin (h : thread.Inv) (hpc : thread.owner = .join)
    (hend : thread.worker = .none ∨ thread.worker = .done) :
  Inv { thread with owner := .destroyed }
  := by
  have hmeets := h.meets
  have hlives : thread.worker.lives = false := by
    obtain hend | hend := hend <;> rw [hend] <;> rfl
  rw [hpc] at hmeets
  apply h.ownerMove
  · rw [hlives]
    rintro ⟨⟩
  · rintro ⟨⟩
  · simp [hpc]
  · rw [h.ownerHolds, hpc]
    rfl
  · exact h.workerHolds
  · obtain hend | hend := hend <;> rw [hend] at hmeets ⊢ <;>
      simpa [EventLoopThread.meets, WorkerPc.serves] using hmeets

theorem Inv.ownerStep (h : thread.Inv) (hstep : thread.ownerStep = some thread') :
  thread'.Inv
  := by
  have hstep' := hstep
  rw [EventLoopThread.ownerStep] at hstep
  cases hpc : thread.owner with
  | lock =>
    rw [hpc] at hstep
    obtain ⟨hmutex, heq⟩ := Option.ite_none_right_eq_some.mp hstep
    cases heq
    have hlock := h.ownerLock hmutex (.inl hpc)
    rwa [if_pos hpc] at hlock
  | check => apply h.ownerCheck hpc hstep'
  | joinFailed =>
    rw [hpc] at hstep
    obtain ⟨hdone, heq⟩ := Option.ite_none_right_eq_some.mp hstep
    cases heq
    apply h.ownerJoinFailed hpc hdone
  | lockToQuit =>
    rw [hpc] at hstep
    obtain ⟨hmutex, heq⟩ := Option.ite_none_right_eq_some.mp hstep
    cases heq
    have hlock := h.ownerLock hmutex (.inr hpc)
    rwa [if_neg (by simp [hpc])] at hlock
  | quit =>
    rw [hpc] at hstep
    dsimp only at hstep
    split at hstep
    · next hshown =>
      cases hstep
      apply h.ownerQuit hpc hshown
    · next hshown =>
      cases hstep
      apply h.ownerQuitNone hpc (Bool.not_eq_true _ ▸ hshown)
  | wakeup =>
    rw [hpc] at hstep
    cases hstep
    apply h.ownerWakeup hpc
  | join =>
    rw [hpc] at hstep
    obtain ⟨hend, heq⟩ := Option.ite_none_right_eq_some.mp hstep
    cases heq
    apply h.ownerJoin hpc hend
  | idle | asleep | destroyed =>
    rw [hpc] at hstep
    cases hstep

theorem Inv.startLoop (h : thread.Inv) (hpc : thread.owner = .idle) :
  thread.startLoop.Inv
  := by
  have hmeets := h.meets
  rw [EventLoopThread.startLoop]
  split
  · exact h
  · next hstarted =>
    simp only [hpc, EventLoopThread.meets, hstarted, Bool.not_false, Bool.true_and,
      Bool.false_and, Bool.or_false, Bool.and_eq_true, Bool.not_eq_true',
      decide_eq_true_eq] at hmeets
    obtain ⟨⟨hfailed, hresult⟩, hworker⟩ := hmeets
    have hloop : thread.loop = none := by
      have hthere := h.there
      rw [hworker] at hthere
      simpa [WorkerPc.lives] using hthere
    constructor
    · exact h.sane
    · rw [h.ownerHolds, hpc]
      rfl
    · rw [h.workerHolds, hworker]
      rfl
    · rw [h.shown, hworker]
      rfl
    · rw [h.there, hworker]
      rfl
    · simp [EventLoopThread.meets, hfailed, hresult, WorkerPc.starts]
    · intro loop hhere
      rw [hloop] at hhere
      cases hhere

theorem Inv.destroy (h : thread.Inv) (hpc : thread.owner = .idle)
    (hidle : ∀ loop, thread.loop = some loop → loop.inWakeup .owner = false) :
  Inv { thread with owner := .lockToQuit }
  := by
  have hmeets := h.meets
  rw [hpc] at hmeets
  apply h.ownerStay
  · rw [hpc]
    rfl
  · rfl
  · simp [hpc]
  · simp
  · intro _
    exact hidle
  · exact hmeets

theorem Inv.spurious (h : thread.Inv) (hpc : thread.owner = .asleep) :
  Inv { thread with owner := .lock }
  := by
  have hmeets := h.meets
  rw [hpc] at hmeets
  apply h.ownerStay
  · rw [hpc]
    rfl
  · rfl
  · simp [hpc]
  · simp
  · simp [hpc]
  · grind [EventLoopThread.meets]

/-- What a call of a loop leaves as it is, except for `quit` and `loop`. -/
structure Kept (loop loop' : EventLoop Party F) : Prop where
  owner : loop'.ownerThreadId = loop.ownerThreadId
  room : loop'.maxEvents = loop.maxEvents
  valid : loop'.valid = loop.valid
  quits : loop'.quit_ = loop.quit_

/-- A call that pushes a functor, or the write at its end. -/
theorem kept_of_call {party : Party} {label : EventLoop.Label Party F}
    {loop loop' : EventLoop Party F} (huses : Uses party label)
    (hcall : ∀ outcome, label ≠ .advance outcome) (hstep : loop.step label = some loop') :
  Kept loop loop' ∧ loop'.pc = loop.pc
    ∧ ∀ other, other ≠ party → loop'.inWakeup other = loop.inWakeup other
  := by
  have hpush : ∀ t functor, t = party → Kept loop (loop.queueInLoop t functor)
      ∧ (loop.queueInLoop t functor).pc = loop.pc
      ∧ ∀ other, other ≠ party →
        (loop.queueInLoop t functor).inWakeup other = loop.inWakeup other := by
    rintro t functor rfl
    cases functor with
    | none => exact ⟨⟨rfl, rfl, rfl, rfl⟩, rfl, fun _ _ => rfl⟩
    | some functor =>
      refine ⟨⟨rfl, rfl, rfl, rfl⟩, rfl, ?_⟩
      intro other hother
      simp [EventLoop.queueInLoop, Function.update_of_ne hother]
  cases label with
  | queueInLoop t functor =>
    obtain ⟨-, heq⟩ := Option.ite_none_right_eq_some.mp hstep
    cases heq
    apply hpush t functor huses
  | runInLoop t functor =>
    obtain ⟨-, heq⟩ := Option.ite_none_right_eq_some.mp hstep
    cases heq
    rw [EventLoop.runInLoop]
    split
    · exact ⟨⟨rfl, rfl, rfl, rfl⟩, rfl, fun _ _ => rfl⟩
    · apply hpush t functor huses
  | wakeup t =>
    obtain ⟨-, heq⟩ := Option.ite_none_right_eq_some.mp hstep
    cases heq
    refine ⟨⟨rfl, rfl, rfl, rfl⟩, rfl, ?_⟩
    intro other hother
    rw [show t = party from huses]
    simp [EventLoop.wakeup, Function.update_of_ne hother]
  | advance outcome => exact absurd rfl (hcall outcome)
  | quit t => cases huses
  | loop t => cases huses

/-- The thread of a loop leaves it only to quit, unless a wait fails. -/
theorem kept_of_advance {loop loop' : EventLoop Party F} {outcome : EventLoop.Outcome}
    (hadvance : loop.advance loop.pc outcome = some loop') :
  Kept loop loop' ∧ loop'.inWakeup = loop.inWakeup ∧ loop.pc ≠ .outside
    ∧ (loop'.pc = .outside → outcome ≠ .failed → loop.quit_ = true)
  := by
  generalize hpc : loop.pc = pc at hadvance
  rw [EventLoop.advance.eq_def] at hadvance
  split at hadvance
  case h_1 =>
    cases hadvance
    rw [EventLoop.check]
    split
    · next hquit => exact ⟨⟨rfl, rfl, rfl, rfl⟩, rfl, by rintro ⟨⟩, fun _ _ => hquit⟩
    · exact ⟨⟨rfl, rfl, rfl, rfl⟩, rfl, by rintro ⟨⟩, by rintro ⟨⟩⟩
  case h_2 =>
    split at hadvance
    · cases hadvance
      exact ⟨⟨rfl, rfl, rfl, rfl⟩, rfl, by rintro ⟨⟩, by rintro ⟨⟩⟩
    · cases hadvance
  case h_4 =>
    cases hadvance
    exact ⟨⟨rfl, rfl, rfl, rfl⟩, rfl, by rintro ⟨⟩, fun _ hfailed => absurd rfl hfailed⟩
  case h_9 =>
    cases hadvance
    rw [EventLoop.handleWakeup]
    split
    · refine ⟨⟨rfl, rfl, rfl, rfl⟩, rfl, by rintro ⟨⟩, ?_⟩
      intro hout
      rw [show _ = _ from hpc] at hout
      cases hout
    · exact ⟨⟨rfl, rfl, rfl, rfl⟩, rfl, by rintro ⟨⟩, by rintro ⟨⟩⟩
  case h_14 => cases hadvance
  all_goals
    cases hadvance
    exact ⟨⟨rfl, rfl, rfl, rfl⟩, rfl, by rintro ⟨⟩, by rintro ⟨⟩⟩

theorem Inv.use (h : thread.Inv) {label : EventLoop.Label Party F} (hpc : thread.owner = .idle)
    (hresult : thread.result = true) (huses : Uses .owner label)
    (hstep : match thread.loop with
      | none => thread' = { thread with dangling := true }
      | some loop =>
        ∃ loop', loop.step label = some loop' ∧ thread' = { thread with loop := some loop' }) :
  thread'.Inv
  := by
  have hserves : thread.worker.serves = true := by
    have hmeets := h.meets
    rw [hpc, hresult] at hmeets
    grind [EventLoopThread.meets]
  obtain ⟨loop, hloop, hhosts⟩ :=
    h.exists_loop (WorkerPc.lives_of_shows (WorkerPc.shows_of_serves hserves))
  rw [hloop] at hstep
  obtain ⟨loop', hcall, rfl⟩ := hstep
  have hadvance : ∀ outcome, label ≠ .advance outcome := by
    rintro outcome rfl
    cases huses
  obtain ⟨hkept, hpc', -⟩ := kept_of_call huses hadvance hcall
  constructor
  · exact h.sane
  · exact h.ownerHolds
  · exact h.workerHolds
  · exact h.shown
  · rw [← h.there, hloop]
    rfl
  · exact h.meets
  · rintro _ ⟨⟩
    constructor
    · apply hhosts.sound.step hcall
    · rw [hkept.owner, hhosts.owner]
    · rw [hkept.room]
      exact hhosts.room
    · rw [hkept.valid]
      exact hhosts.valid
    · intro _
      right
      exact ⟨hpc, hresult⟩
    · rw [hkept.quits]
      exact hhosts.quits
    · intro hwakeup
      rw [show _ = _ from hwakeup] at hpc
      cases hpc
    · rw [hpc', hkept.quits]
      exact hhosts.outside
    · rw [hpc']
      exact hhosts.inside

/-! ### The steps of the thread -/

theorem Inv.create (h : thread.Inv) (hpc : thread.worker = .create) (valid : Bool)
    (maxEvents : Nat) :
  EventLoopThread.Inv { thread with
    loop := some (EventLoop.new .worker valid maxEvents : EventLoop Party F)
    worker := if valid then .lockLoop else .lockFailed }
  := by
  have hmeets := h.meets
  rw [hpc] at hmeets
  have howner : thread.owner ≠ .wakeup ∧ (thread.owner = .join && thread.result) = false := by
    revert hmeets
    generalize thread.owner = owner
    cases owner <;> grind [EventLoopThread.meets, WorkerPc.serves]
  constructor
  · exact h.sane
  · exact h.ownerHolds
  · rw [h.workerHolds, hpc]
    cases valid <;> rfl
  · rw [h.shown, hpc]
    cases valid <;> rfl
  · cases valid <;> rfl
  · have hgo : ∀ s f r o (valid : Bool), EventLoopThread.meets s f r .create o = true →
        EventLoopThread.meets s f r (if valid then .lockLoop else .lockFailed) o = true := by
      decide
    apply hgo _ _ _ _ valid hmeets
  · rintro _ ⟨⟩
    constructor
    · apply EventLoop.new_sound Party.worker valid maxEvents
    · rfl
    · rw [EventLoop.new]
      dsimp only
      split
      · exact Nat.one_pos
      · apply Nat.pos_of_ne_zero ‹_›
    · cases valid <;> rfl
    · rintro ⟨⟩
    · simp [EventLoop.new, howner.1, howner.2]
    · intro hwakeup
      exact absurd hwakeup howner.1
    · intro _ hrunning
      cases valid <;> cases hrunning
    · intro hin
      exact absurd rfl hin

/-- The thread goes on, and does not touch the loop. -/
theorem Inv.workerMove (h : thread.Inv) {worker : WorkerPc} {owner : OwnerPc}
    {mutex : Option Party} {startFailed loopShown : Bool}
    (howner : owner = thread.owner ∨ thread.owner = .asleep ∧ owner = .lock)
    (hlives : worker.lives = thread.worker.lives)
    (hsucceeded : worker.succeeded = thread.worker.succeeded) (hrunning : worker ≠ .running)
    (hleft : thread.worker = .running → ∀ loop, thread.loop = some loop → loop.pc = .outside)
    (howns : mutex = some .owner ↔ thread.owner.holds = true)
    (hholds : mutex = some .worker ↔ worker.holds = true) (hshown : loopShown = worker.shows)
    (hmeets : EventLoopThread.meets thread.started startFailed thread.result worker owner = true) :
  Inv { thread with worker, owner, mutex, startFailed, loopShown }
  where
  sane := h.sane
  ownerHolds := by
    obtain rfl | ⟨hasleep, rfl⟩ := howner
    · exact howns
    · rw [howns, hasleep]
      rfl
  workerHolds := hholds
  shown := hshown
  there := h.there.trans hlives.symm
  meets := hmeets
  hosts := by
    intro loop hloop
    have hhosts := h.hosts loop hloop
    constructor
    · exact hhosts.sound
    · exact hhosts.owner
    · exact hhosts.room
    · rw [hhosts.valid, hsucceeded]
    · intro hcall
      obtain rfl | ⟨hasleep, -⟩ := howner
      · apply hhosts.calls hcall
      · simpa [hasleep] using hhosts.calls hcall
    · obtain rfl | ⟨hasleep, rfl⟩ := howner
      · exact hhosts.quits
      · simpa [hasleep] using hhosts.quits
    · obtain rfl | ⟨-, rfl⟩ := howner
      · exact hhosts.wakes
      · rintro ⟨⟩
    · intro _ hrun
      exact absurd hrun hrunning
    · intro hin
      exact absurd (hleft (hhosts.inside hin) loop hloop) hin

/-- The thread ends. -/
theorem Inv.workerEnd (h : thread.Inv) {owner : OwnerPc}
    (howner : owner = thread.owner ∨ thread.owner = .asleep ∧ owner = .lock)
    (hholds : thread.worker.holds = false) (hshows : thread.worker.shows = false)
    (hmeets : EventLoopThread.meets thread.started thread.startFailed thread.result .done owner
      = true) :
  Inv { thread with loop := (none : Option (EventLoop Party F)), owner, worker := .done }
  where
  sane := h.sane
  ownerHolds := by
    obtain rfl | ⟨hasleep, rfl⟩ := howner
    · exact h.ownerHolds
    · rw [h.ownerHolds, hasleep]
      rfl
  workerHolds := by
    rw [h.workerHolds, hholds]
    rfl
  shown := h.shown.trans hshows
  there := rfl
  meets := hmeets
  hosts := by
    intro loop hloop
    cases hloop

/-- The mutex is held by no more than one of the two. -/
theorem Inv.ownerWaits (h : thread.Inv) (hholds : thread.worker.holds = true) :
  thread.owner.holds = false
  := by
  have howner := h.ownerHolds
  rw [h.workerHolds.mpr hholds] at howner
  simpa using howner

theorem notifyOne_owner :
  thread.notifyOne.owner = thread.owner
    ∨ thread.owner = .asleep ∧ thread.notifyOne.owner = .lock
  := by
  rw [notifyOne]
  dsimp only
  split
  · next hasleep =>
    right
    exact ⟨hasleep, rfl⟩
  · left
    rfl

/-- The thread locks the mutex. -/
theorem Inv.workerLock (h : thread.Inv) {worker worker' : WorkerPc} (hpc : thread.worker = worker)
    (hmutex : thread.mutex = none)
    (hsame : worker'.lives = worker.lives ∧ worker'.succeeded = worker.succeeded
      ∧ worker'.shows = worker.shows)
    (hplace : worker'.holds = true ∧ worker ≠ .running ∧ worker' ≠ .running)
    (hgo : ∀ s f r o, o.holds = false → EventLoopThread.meets s f r worker o = true →
      EventLoopThread.meets s f r worker' o = true) :
  Inv { thread with mutex := some .worker, worker := worker' }
  := by
  subst hpc
  have hfree := (h.free hmutex).1
  apply h.workerMove
  · left
    rfl
  · exact hsame.1
  · exact hsame.2.1
  · exact hplace.2.2
  · intro hrunning
    exact absurd hrunning hplace.2.1
  · simp [hfree]
  · simp [hplace.1]
  · rw [h.shown, hsame.2.2]
  · apply hgo _ _ _ _ hfree h.meets

/-- The thread writes what the mutex protects, and unlocks it. -/
theorem Inv.workerUnlock (h : thread.Inv) {worker worker' : WorkerPc}
    (hpc : thread.worker = worker) {startFailed loopShown : Bool}
    (hsame : worker'.lives = worker.lives ∧ worker'.succeeded = worker.succeeded)
    (hplace : worker.holds = true ∧ worker'.holds = false ∧ worker ≠ .running
      ∧ worker' ≠ .running)
    (hshown : loopShown = worker'.shows)
    (hgo : ∀ s r o, EventLoopThread.meets s thread.startFailed r worker o = true →
      EventLoopThread.meets s startFailed r worker' o = true) :
  Inv { thread with startFailed, loopShown, mutex := none, worker := worker' }
  := by
  subst hpc
  have hwaits := h.ownerWaits hplace.1
  apply h.workerMove
  · left
    rfl
  · exact hsame.1
  · exact hsame.2
  · exact hplace.2.2.2
  · intro hrunning
    exact absurd hrunning hplace.2.2.1
  · simp [hwaits]
  · simp [hplace.2.1]
  · exact hshown
  · apply hgo _ _ _ h.meets

/-- The thread notifies the owner that it has shown the loop. -/
theorem Inv.workerNotify (h : thread.Inv) (hpc : thread.worker = .notifyLoop) :
  Inv { thread.notifyOne with worker := .run }
  := by
  have hgo : ∀ s f r o, EventLoopThread.meets s f r .notifyLoop o = true →
      EventLoopThread.meets s f r .run (if o = .asleep then .lock else o) = true := by
    decide
  have hmeets := h.meets
  rw [hpc] at hmeets
  apply h.workerMove
  · apply notifyOne_owner
  · rw [hpc]
    rfl
  · rw [hpc]
    rfl
  · simp
  · simp [hpc]
  · exact h.ownerHolds
  · apply h.workerHolds.trans
    rw [hpc]
    rfl
  · apply h.shown.trans
    rw [hpc]
    rfl
  · apply hgo _ _ _ _ hmeets

/-- The thread enters the loop. -/
theorem Inv.workerRun (h : thread.Inv) (hpc : thread.worker = .run) :
  Inv { thread.useLoop fun loop => loop.loop .worker with worker := .running }
  := by
  have hgo : ∀ s f r o, EventLoopThread.meets s f r .run o = true →
      EventLoopThread.meets s f r .running o = true := by
    decide
  obtain ⟨loop, hloop, hhosts⟩ := h.exists_loop (by rw [hpc]; rfl)
  have hmeets := h.meets
  rw [hpc] at hmeets
  have hout : loop.pc = .outside := by
    by_contra hin
    have hrunning := hhosts.inside hin
    rw [hpc] at hrunning
    cases hrunning
  have henter : loop.loop .worker
      = { loop with looping := true, thread := .worker, pc := .check } := by
    rw [EventLoop.loop, if_neg]
    have hlooping : loop.looping = false := by
      by_contra hlooping
      apply hhosts.sound.looping.mp (Bool.not_eq_false _ ▸ hlooping) hout
    simp [hhosts.valid, hpc, EventLoop.isInLoopThread, hhosts.owner, hlooping,
      WorkerPc.succeeded]
  have hsound := hhosts.sound.loop .worker
  rw [useLoop_of_some hloop]
  constructor
  · exact h.sane
  · exact h.ownerHolds
  · rw [h.workerHolds, hpc]
    rfl
  · rw [h.shown, hpc]
    rfl
  · rfl
  · apply hgo _ _ _ _ hmeets
  · rintro _ ⟨⟩
    dsimp only
    rw [henter] at hsound ⊢
    constructor
    · exact hsound
    · exact hhosts.owner
    · exact hhosts.room
    · rw [hhosts.valid, hpc]
      rfl
    · exact hhosts.calls
    · exact hhosts.quits
    · exact hhosts.wakes
    · rintro ⟨⟩
    · intro _
      rfl

/-- The thread leaves its loop only when the owner asked it to quit. -/
theorem Inv.workerLeave (h : thread.Inv) (hpc : thread.worker = .running)
    {loop : EventLoop Party F} (hloop : thread.loop = some loop) (hout : loop.pc = .outside) :
  Inv { thread with worker := .lockEnd }
  := by
  have hhosts := h.hosts loop hloop
  have hquit := hhosts.quits.symm.trans (hhosts.outside hout hpc)
  have hgo : ∀ s f r o, (o = .wakeup || o = .join && r) = true →
      EventLoopThread.meets s f r .running o = true →
        EventLoopThread.meets s f r .lockEnd o = true := by
    decide
  have hmeets := h.meets
  rw [hpc] at hmeets
  apply h.workerMove
  · left
    rfl
  · rw [hpc]
    rfl
  · rw [hpc]
    rfl
  · simp
  · intro _ _ hthere
    rw [hloop] at hthere
    cases hthere
    exact hout
  · exact h.ownerHolds
  · rw [h.workerHolds, hpc]
    rfl
  · rw [h.shown, hpc]
    rfl
  · apply hgo _ _ _ _ hquit hmeets

/-- The thread of a loop that failed notifies the owner and ends. -/
theorem Inv.workerNotifyFailed (h : thread.Inv) (hpc : thread.worker = .notifyFailed) :
  Inv ({ thread.notifyOne with loop := none, worker := .done } : EventLoopThread F)
  := by
  have hgo : ∀ s f r o, EventLoopThread.meets s f r .notifyFailed o = true →
      EventLoopThread.meets s f r .done (if o = .asleep then .lock else o) = true := by
    decide
  have hmeets := h.meets
  rw [hpc] at hmeets
  apply h.workerEnd
  · apply notifyOne_owner
  · rw [hpc]
    rfl
  · rw [hpc]
    rfl
  · apply hgo _ _ _ _ hmeets

/-- The thread ends behind its loop. -/
theorem Inv.workerExit (h : thread.Inv) (hpc : thread.worker = .exit) :
  Inv ({ thread with loop := none, worker := .done } : EventLoopThread F)
  := by
  have hgo : ∀ s f r o, EventLoopThread.meets s f r .exit o = true →
      EventLoopThread.meets s f r .done o = true := by
    decide
  have hmeets := h.meets
  rw [hpc] at hmeets
  apply h.workerEnd
  · left
    rfl
  · rw [hpc]
    rfl
  · rw [hpc]
    rfl
  · apply hgo _ _ _ _ hmeets

theorem Inv.workerStep (h : thread.Inv) (hstep : thread.workerStep = some thread') :
  thread'.Inv
  := by
  rw [EventLoopThread.workerStep] at hstep
  cases hpc : thread.worker with
  | lockFailed | lockLoop | lockEnd =>
    rw [hpc] at hstep
    obtain ⟨hmutex, heq⟩ := Option.ite_none_right_eq_some.mp hstep
    cases heq
    apply h.workerLock hpc hmutex <;> decide
  | setFailed =>
    rw [hpc] at hstep
    cases hstep
    apply h.workerUnlock hpc
    · decide
    · decide
    · rw [h.shown, hpc]
      rfl
    · generalize thread.startFailed = failed
      revert failed
      decide
  | notifyFailed =>
    rw [hpc] at hstep
    cases hstep
    apply h.workerNotifyFailed hpc
  | setLoop | clear =>
    rw [hpc] at hstep
    cases hstep
    apply h.workerUnlock hpc
    · decide
    · decide
    · rfl
    · generalize thread.startFailed = failed
      revert failed
      decide
  | notifyLoop =>
    rw [hpc] at hstep
    cases hstep
    apply h.workerNotify hpc
  | run =>
    rw [hpc] at hstep
    cases hstep
    apply h.workerRun hpc
  | running =>
    rw [hpc] at hstep
    obtain ⟨hout, heq⟩ := Option.ite_none_right_eq_some.mp hstep
    cases heq
    obtain ⟨loop, hloop, hout⟩ : ∃ loop, thread.loop = some loop ∧ loop.pc = .outside := by
      obtain ⟨loop, hloop, hout⟩ := (Option.any_eq_true _ _).mp hout
      use loop, hloop
      revert hout
      cases loop.pc <;> simp [LoopPc.isOutside]
    apply h.workerLeave hpc hloop hout
  | exit =>
    rw [hpc] at hstep
    cases hstep
    apply h.workerExit hpc
  | none | create | done =>
    rw [hpc] at hstep
    cases hstep

theorem Inv.inLoop (h : thread.Inv) {label : EventLoop.Label Party F}
    {loop loop' : EventLoop Party F} (hpc : thread.worker = .running)
    (huses : Uses .worker label) (hfailed : label ≠ .advance .failed)
    (hloop : thread.loop = some loop) (hstep : loop.step label = some loop') :
  Inv { thread with loop := some loop' }
  := by
  have hhosts := h.hosts loop hloop
  have hstays : Kept loop loop' ∧ loop'.inWakeup .owner = loop.inWakeup .owner
      ∧ (loop'.pc = .outside → loop.quit_ = true) := by
    by_cases hadvance : ∃ outcome, label = .advance outcome
    · obtain ⟨outcome, rfl⟩ := hadvance
      obtain ⟨-, hadvance⟩ := Option.ite_none_left_eq_some.mp hstep
      obtain ⟨hkept, hwakeup, -, hout⟩ := kept_of_advance hadvance
      refine ⟨hkept, congrFun hwakeup .owner, ?_⟩
      intro hpc'
      apply hout hpc'
      rintro rfl
      apply hfailed rfl
    · obtain ⟨hkept, hsame, hwakeup⟩ := kept_of_call huses (not_exists.mp hadvance) hstep
      refine ⟨hkept, hwakeup .owner (by rintro ⟨⟩), ?_⟩
      intro hpc'
      apply hhosts.outside (hsame.symm.trans hpc') hpc
  obtain ⟨hkept, hwakeup, hout⟩ := hstays
  constructor
  · exact h.sane
  · exact h.ownerHolds
  · exact h.workerHolds
  · exact h.shown
  · rw [← h.there, hloop]
    rfl
  · exact h.meets
  · rintro _ ⟨⟩
    constructor
    · apply hhosts.sound.step hstep
    · rw [hkept.owner, hhosts.owner]
    · rw [hkept.room]
      exact hhosts.room
    · rw [hkept.valid]
      exact hhosts.valid
    · rw [hwakeup]
      exact hhosts.calls
    · rw [hkept.quits]
      exact hhosts.quits
    · rw [hwakeup]
      exact hhosts.wakes
    · intro hpc' _
      rw [hkept.quits]
      apply hout hpc'
    · intro _
      exact hpc

theorem inv_of_reachable (h : system.ReachableBy NoFailure thread) :
  thread.Inv
  := by
  apply h.invariant
  · rintro _ rfl
    apply inv_of_new
  · intro thread label thread' hinv hsound hstep
    cases label with
    | startLoop =>
      obtain ⟨hpc, rfl⟩ := hstep
      apply hinv.startLoop hpc
    | destroy =>
      obtain ⟨hpc, hidle, rfl⟩ := hstep
      apply hinv.destroy hpc hidle
    | use label =>
      obtain ⟨hpc, hresult, huses, hstep⟩ := hstep
      apply hinv.use hpc hresult huses hstep
    | owner => apply hinv.ownerStep hstep
    | spurious =>
      obtain ⟨hpc, rfl⟩ := hstep
      apply hinv.spurious hpc
    | create valid maxEvents =>
      obtain ⟨hpc, rfl⟩ := hstep
      apply hinv.create hpc valid maxEvents
    | worker => apply hinv.workerStep hstep
    | inLoop label =>
      obtain ⟨hpc, huses, loop, loop', hloop, hstep, rfl⟩ := hstep
      apply hinv.inLoop hpc huses _ hloop hstep
      rintro rfl
      exact hsound

/-- What the owner can rely on. -/
structure OwnsLoop (thread : EventLoopThread F) : Prop where
  /-- No loop was used that is gone. -/
  sane : thread.dangling = false
  /-- A loop that a start returned is there, and runs or will run. -/
  usable : thread.owner = .idle → thread.result = true →
    ∃ loop, thread.loop = some loop ∧ loop.valid = true ∧ loop.quit_ = false
      ∧ thread.worker.serves = true
  /-- Behind a start that returned no loop there is no thread. -/
  refused : thread.owner = .idle → thread.started = true → thread.result = false →
    thread.loop = none ∧ thread.worker = .done
  /-- Behind a destructor there is no thread. -/
  ended : thread.owner = .destroyed →
    thread.loop = none ∧ (thread.worker = .none ∨ thread.worker = .done)

/-- Unless a wait of the loop fails, the owner uses no loop that is gone, whatever the order of
the steps: a loop that `startLoop` returned stays until the destructor, and neither a start that
failed nor a destructor leaves a thread behind. -/
theorem owns_of_reachable (h : system.ReachableBy NoFailure thread) :
  thread.OwnsLoop
  := by
  have hinv := inv_of_reachable h
  have hmeets := hinv.meets
  have hgone : thread.worker.lives = false → thread.loop = none := by
    intro hlives
    rw [← Option.not_isSome_iff_eq_none, hinv.there, hlives]
    exact Bool.false_ne_true
  constructor
  · exact hinv.sane
  · intro hpc hresult
    rw [hpc, hresult] at hmeets
    have hserves : thread.worker.serves = true := by
      grind [EventLoopThread.meets]
    obtain ⟨loop, hloop, hhosts⟩ :=
      hinv.exists_loop (WorkerPc.lives_of_shows (WorkerPc.shows_of_serves hserves))
    refine ⟨loop, hloop, ?_, ?_, hserves⟩
    · rw [hhosts.valid]
      revert hserves
      cases thread.worker <;> simp [WorkerPc.serves, WorkerPc.succeeded]
    · rw [hhosts.quits, hpc]
      rfl
  · intro hpc hstarted hresult
    rw [hpc, hstarted, hresult] at hmeets
    have hdone : thread.worker = .done := by
      grind [EventLoopThread.meets]
    apply And.intro (hgone _) hdone
    rw [hdone]
    rfl
  · intro hpc
    rw [hpc] at hmeets
    have hend : thread.worker = .none ∨ thread.worker = .done := by
      grind [EventLoopThread.meets]
    apply And.intro (hgone _) hend
    obtain hend | hend := hend <;> rw [hend] <;> rfl

/-- A thread whose loop was started and is about to run. -/
theorem exists_started :
  ∃ thread : EventLoopThread Nat, system.ReachableBy NoFailure thread ∧ thread.owner = .idle
    ∧ thread.result = true ∧ thread.worker = .run
    ∧ ∀ loop, thread.loop = some loop → loop.inWakeup .owner = false
  := by
  have h : system.ReachableBy NoFailure (new : EventLoopThread Nat) := .initial rfl
  have h₁ := h.step (ℓ := Label.startLoop) trivial ⟨rfl, rfl⟩
  have h₂ := h₁.step (ℓ := Label.create true 16) trivial ⟨rfl, rfl⟩
  have h₃ := h₂.step (ℓ := Label.worker) trivial rfl
  have h₄ := h₃.step (ℓ := Label.worker) trivial rfl
  have h₅ := h₄.step (ℓ := Label.worker) trivial rfl
  have h₆ := h₅.step (ℓ := Label.owner) trivial rfl
  have h₇ := h₆.step (ℓ := Label.owner) trivial rfl
  refine ⟨_, h₇, rfl, rfl, rfl, ?_⟩
  rintro _ ⟨⟩
  rfl

theorem started_owns :
  ∃ thread : EventLoopThread Nat, thread.worker = .run ∧ thread.OwnsLoop
  := by
  obtain ⟨thread, h, -, -, hworker, -⟩ := exists_started
  use thread, hworker
  apply owns_of_reachable h

end EventLoopThread

end RoomServer
