import Mathlib.Data.List.Basic
import Mathlib.Logic.Function.Basic
import RoomServer.Lib.Transition

/-!
# The event loop

Threads queue functors: they push them under a mutex, and then write to an eventfd which wakes
the thread of the loop.  That thread waits for events, lets their callbacks run (the one of the
eventfd reads it until it is empty), takes the whole queue, and executes what it has taken.  The
epoll instance watches the eventfd edge-triggered: an event that was reported is not reported
again before the next write.

Each access to the queue, to the eventfd or to `quit_` is a step of its own, and the steps of all
threads interleave.  No functor is lost, executed twice or out of order, and a thread that waits
without a ready event has nothing to do, unless another thread is about to wake it.
-/

namespace RoomServer

/-- An eventfd that an epoll instance watches edge-triggered: it is `armed` while it is on the
ready list of the instance. -/
structure EventFd where
  counter : Nat
  armed : Bool

namespace EventFd

/-- The largest value of the counter of an eventfd. -/
abbrev maxCounter : Nat := 18446744073709551614

/-- Write one to an eventfd, which has no effect when the counter is too large for it. -/
def write (fd : EventFd) : EventFd :=
  if fd.counter < maxCounter then ⟨fd.counter + 1, true⟩ else fd

/-- Read an eventfd, unless there is nothing to read. -/
def read (fd : EventFd) : Option EventFd :=
  if fd.counter = 0 then none else some { fd with counter := 0 }

/-- The wait on the epoll instance would report the eventfd. -/
def Ready (fd : EventFd) : Prop := fd.armed = true ∧ 0 < fd.counter

instance (fd : EventFd) : Decidable fd.Ready := inferInstanceAs (Decidable (_ ∧ _))

/-- A written eventfd is not empty, also when the write had no effect. -/
theorem counter_write_pos (fd : EventFd) :
  0 < fd.write.counter
  := by
  rw [write]
  split
  · apply Nat.succ_pos _
  · next h =>
    simp only [maxCounter] at h
    omega

/-- A write arms an eventfd, or it is not the first one since the last read. -/
theorem armed_write (fd : EventFd) :
  fd.write.armed = true ∨ fd.write = fd ∧ 0 < fd.counter
  := by
  rw [write]
  split
  · left
    rfl
  · next h =>
    right
    simp only [maxCounter] at h
    constructor
    · rfl
    · omega

end EventFd

/-- An event that a wait reports: the one of the eventfd, or one of another descriptor. -/
inductive LoopEvent where
  | wakeup
  | other (fd : Nat)
  deriving DecidableEq

/-- Where the thread of a loop is: outside of `loop`, at its condition, in `epoll_wait`, before
the callbacks of the remaining events, in `handle_wakeup`, in another callback, before the
execution of the remaining functors of a batch, and in a functor. -/
inductive LoopPc (F : Type) where
  | outside
  | check
  | waiting
  | dispatch (events : List LoopEvent)
  | handleWakeup (events : List LoopEvent)
  | callback (events : List LoopEvent)
  | batch (functors : List F)
  | functor (functors : List F)

namespace LoopPc

variable {F : Type}

/-- The functors of the current batch that are still to be executed. -/
def functors : LoopPc F → List F
  | .batch functors | .functor functors => functors
  | _ => []

/-- The thread is in code of others, which may use the loop. -/
def InUserCode : LoopPc F → Prop
  | .outside | .callback _ | .functor _ => True
  | _ => False

/-- The queue will be taken before the thread waits again. -/
def BeforeSwap : LoopPc F → Prop
  | .dispatch _ | .handleWakeup _ | .callback _ => True
  | _ => False

/-- The eventfd will be read before the queue is taken, unless the loop quits. -/
def BeforeRead : LoopPc F → Prop
  | .dispatch events | .callback events => .wakeup ∈ events
  | .handleWakeup _ => True
  | _ => False

instance : (pc : LoopPc F) → Decidable pc.InUserCode
  | .outside | .callback _ | .functor _ => .isTrue trivial
  | .check | .waiting | .dispatch _ | .handleWakeup _ | .batch _ => .isFalse id

end LoopPc

/-- A loop with threads `T` and functors `F`: `inWakeup` are the threads that are to write to the
eventfd, and `thread` is the one that called `loop`.  The loop has a record of the functors
that were pushed, and of those that were executed, with the threads that executed them. -/
structure EventLoop (T F : Type) where
  ownerThreadId : T
  valid : Bool
  maxEvents : Nat
  quit_ : Bool
  looping : Bool
  wakeupFd : EventFd
  pendingFunctors : List F
  thread : T
  pc : LoopPc F
  inWakeup : T → Bool
  pushed : List F
  executed : List (T × F)

namespace EventLoop

variable {T F : Type}

/-- A new loop; it is not `valid` when its descriptors cannot be created. -/
def new (ownerThreadId : T) (valid : Bool) (maxEvents : Nat) : EventLoop T F where
  ownerThreadId := ownerThreadId
  valid := valid
  maxEvents := if maxEvents = 0 then 1 else maxEvents
  quit_ := false
  looping := false
  wakeupFd := ⟨0, false⟩
  pendingFunctors := []
  thread := ownerThreadId
  pc := .outside
  inWakeup := fun _ => false
  pushed := []
  executed := []

variable [DecidableEq T]

/-- Write to the eventfd, at the end of a call that wakes the loop. -/
def wakeup (loop : EventLoop T F) (t : T) : EventLoop T F :=
  { loop with
    wakeupFd := if loop.valid then loop.wakeupFd.write else loop.wakeupFd
    inWakeup := Function.update loop.inWakeup t false }

/-- Push a functor, unless it is empty; the thread is then to wake the loop. -/
def queueInLoop (loop : EventLoop T F) (t : T) : Option F → EventLoop T F
  | none => loop
  | some functor =>
    { loop with
      pendingFunctors := loop.pendingFunctors ++ [functor]
      pushed := loop.pushed ++ [functor]
      inWakeup := Function.update loop.inWakeup t true }

def isInLoopThread (loop : EventLoop T F) (t : T) : Bool := loop.ownerThreadId == t

/-- A functor that is run in the thread of the loop is not queued. -/
def runInLoop (loop : EventLoop T F) (t : T) (functor : Option F) : EventLoop T F :=
  if loop.isInLoopThread t then loop else loop.queueInLoop t functor

/-- Store `quit_`; another thread is then to wake the loop. -/
def quit (loop : EventLoop T F) (t : T) : EventLoop T F :=
  { loop with
    quit_ := true
    inWakeup :=
      if loop.isInLoopThread t then loop.inWakeup else Function.update loop.inWakeup t true }

/-- Enter the loop, in its own thread and not twice. -/
def loop (loop : EventLoop T F) (t : T) : EventLoop T F :=
  if !loop.valid || !loop.isInLoopThread t || loop.looping then
    loop
  else
    { loop with looping := true, thread := t, pc := .check }

/-- Leave the loop. -/
def leave (loop : EventLoop T F) : EventLoop T F := { loop with looping := false, pc := .outside }

/-- The condition of the loop. -/
def check (loop : EventLoop T F) : EventLoop T F :=
  if loop.quit_ then loop.leave else { loop with pc := .waiting }

/-- A wait can report these events. -/
def Reports (loop : EventLoop T F) (events : List LoopEvent) : Prop :=
  events ≠ [] ∧ events.length ≤ loop.maxEvents ∧ events.count .wakeup ≤ 1
    ∧ (.wakeup ∈ events → loop.wakeupFd.Ready)

instance (loop : EventLoop T F) (events : List LoopEvent) : Decidable (loop.Reports events) :=
  inferInstanceAs (Decidable (_ ∧ _))

/-- The wait returns with events; an eventfd among them leaves the ready list. -/
def epollWait (loop : EventLoop T F) (events : List LoopEvent) : EventLoop T F :=
  { loop with
    wakeupFd :=
      if .wakeup ∈ events then { loop.wakeupFd with armed := false } else loop.wakeupFd
    pc := .dispatch events }

/-- A callback returns: the remaining events are dropped when the loop quits. -/
def afterCallback (loop : EventLoop T F) (events : List LoopEvent) : EventLoop T F :=
  { loop with pc := .dispatch (if loop.quit_ then [] else events) }

/-- The next turn of the loop that reads the eventfd. -/
def handleWakeup (loop : EventLoop T F) (events : List LoopEvent) : EventLoop T F :=
  match loop.wakeupFd.read with
  | some wakeupFd => { loop with wakeupFd }
  | none => loop.afterCallback events

/-- Take the whole queue. -/
def doPendingFunctors (loop : EventLoop T F) : EventLoop T F :=
  { loop with pendingFunctors := [], pc := .batch loop.pendingFunctors }

/-- Begin to execute a functor. -/
def execute (loop : EventLoop T F) (functor : F) (functors : List F) : EventLoop T F :=
  { loop with
    pc := .functor functors
    executed := loop.executed ++ [(loop.thread, functor)] }

/-- How the thread of a loop goes on where others decide: what a wait returns, and whether there
is a callback for an event. -/
inductive Outcome where
  | next
  | events (events : List LoopEvent)
  | interrupted
  | failed
  | noCallback

/-- The next step of the thread of the loop. -/
def advance (loop : EventLoop T F) : LoopPc F → Outcome → Option (EventLoop T F)
  | .check, .next => some loop.check
  | .waiting, .events events => if loop.Reports events then some (loop.epollWait events) else none
  | .waiting, .interrupted => some { loop with pc := .check }
  | .waiting, .failed => some loop.leave
  | .dispatch (.wakeup :: events), .next => some { loop with pc := .handleWakeup events }
  | .dispatch (.other _ :: events), .next => some { loop with pc := .callback events }
  | .dispatch (.other _ :: events), .noCallback => some { loop with pc := .dispatch events }
  | .dispatch [], .next => some loop.doPendingFunctors
  | .handleWakeup events, .next => some (loop.handleWakeup events)
  | .callback events, .next => some (loop.afterCallback events)
  | .batch (functor :: functors), .next => some (loop.execute functor functors)
  | .batch [], .next => some { loop with pc := .check }
  | .functor functors, .next => some { loop with pc := .batch functors }
  | _, _ => none

/-! ### The system -/

/-- The steps of the threads: the calls of the loop, the writes at the end of a call, and the
steps of the thread of the loop. -/
inductive Label (T F : Type) where
  | queueInLoop (t : T) (functor : Option F)
  | runInLoop (t : T) (functor : Option F)
  | quit (t : T)
  | loop (t : T)
  | wakeup (t : T)
  | advance (outcome : Outcome)

/-- A thread can call the loop: it is in no call, and in code of others. -/
def CanCall (loop : EventLoop T F) (t : T) : Prop :=
  loop.inWakeup t = false ∧ (t = loop.thread → loop.pc.InUserCode)

instance (loop : EventLoop T F) (t : T) : Decidable (loop.CanCall t) :=
  inferInstanceAs (Decidable (_ ∧ _))

def step (loop : EventLoop T F) : Label T F → Option (EventLoop T F)
  | .queueInLoop t functor => if loop.CanCall t then some (loop.queueInLoop t functor) else none
  | .runInLoop t functor => if loop.CanCall t then some (loop.runInLoop t functor) else none
  | .quit t => if loop.CanCall t then some (loop.quit t) else none
  | .loop t => if loop.CanCall t then some (loop.loop t) else none
  | .wakeup t => if loop.inWakeup t then some (loop.wakeup t) else none
  | .advance outcome =>
    if loop.inWakeup loop.thread then none else loop.advance loop.pc outcome

def system : System (EventLoop T F) (Label T F) where
  Initial loop := ∃ ownerThreadId valid maxEvents, loop = new ownerThreadId valid maxEvents
  Step loop label loop' := loop.step label = some loop'

/-! ### The invariant -/

/-- What holds of a loop between any two steps. -/
structure Sound (loop : EventLoop T F) : Prop where
  /-- The functors that were pushed were executed, or are in the batch or in the queue. -/
  conserved : loop.pushed
    = loop.executed.map Prod.snd ++ loop.pc.functors ++ loop.pendingFunctors
  /-- Functors were executed in the thread of the loop. -/
  inThread : ∀ run ∈ loop.executed, run.1 = loop.ownerThreadId
  looping : loop.looping = true ↔ loop.pc ≠ .outside
  running : loop.pc ≠ .outside → loop.valid = true ∧ loop.thread = loop.ownerThreadId
  /-- A written eventfd is on the ready list, or it will be read, or the loop quits. -/
  armed : 0 < loop.wakeupFd.counter →
    loop.wakeupFd.armed = true ∨ loop.pc.BeforeRead ∨ loop.quit_ = true ∧ loop.pc ≠ .waiting
  /-- There is a reason to take a queue with functors. -/
  woken : loop.valid = true → loop.pendingFunctors ≠ [] →
    (∃ t, loop.inWakeup t = true) ∨ 0 < loop.wakeupFd.counter ∨ loop.pc.BeforeSwap
  /-- There is a reason to stop waiting when `quit_` is stored. -/
  quits : loop.quit_ = true → loop.pc = .waiting →
    (∃ t, loop.inWakeup t = true) ∨ 0 < loop.wakeupFd.counter

omit [DecidableEq T] in
theorem new_sound (ownerThreadId : T) (valid : Bool) (maxEvents : Nat) :
  (new ownerThreadId valid maxEvents : EventLoop T F).Sound
  := by
  constructor
  · rfl
  · intro run hrun
    cases hrun
  · simp [new]
  · intro h
    exact absurd rfl h
  · intro h
    cases h
  · intro _ h
    exact absurd rfl h
  · intro h
    cases h

/-- A thread that begins to wake the loop leaves the others as they are. -/
theorem exists_update_true {inWakeup : T → Bool} (t : T) :
  ∃ t', Function.update inWakeup t true t' = true
  := by
  use t
  rw [Function.update_self]

namespace Sound

variable {l l' : EventLoop T F}

theorem queueInLoop (h : l.Sound) (t : T) (functor : Option F) :
  (l.queueInLoop t functor).Sound
  := by
  cases functor with
  | none => exact h
  | some functor =>
    constructor
    · simp only [EventLoop.queueInLoop, h.conserved, List.append_assoc]
    · apply h.inThread
    · apply h.looping
    · apply h.running
    · apply h.armed
    · intro _ _
      left
      apply exists_update_true t
    · intro _ _
      left
      apply exists_update_true t

theorem runInLoop (h : l.Sound) (t : T) (functor : Option F) :
  (l.runInLoop t functor).Sound
  := by
  rw [EventLoop.runInLoop]
  split
  · exact h
  · apply h.queueInLoop t functor

theorem quit (h : l.Sound) {t : T} (ht : l.CanCall t) :
  (l.quit t).Sound
  := by
  constructor
  · apply h.conserved
  · apply h.inThread
  · apply h.looping
  · apply h.running
  · intro hcounter
    obtain harmed | hread | ⟨-, hwait⟩ := h.armed hcounter
    · left
      exact harmed
    · right; left
      exact hread
    · right; right
      exact ⟨rfl, hwait⟩
  · intro hvalid hpending
    obtain hin | hrest := h.woken hvalid hpending
    · left
      rw [EventLoop.quit]
      dsimp only
      split
      · exact hin
      · apply exists_update_true t
    · right
      exact hrest
  · -- The thread of the loop cannot call it while it waits.
    intro _ hwait
    left
    rw [EventLoop.quit]
    dsimp only
    split
    · next howner =>
      have hthread := (h.running (hwait ▸ by simp)).2
      rw [isInLoopThread, beq_iff_eq] at howner
      have huser := ht.2 (howner.symm.trans hthread.symm)
      rw [show l.pc = .waiting from hwait] at huser
      cases huser
    · apply exists_update_true t

theorem wakeup (h : l.Sound) (t : T) :
  (l.wakeup t).Sound
  := by
  have hcounter : l.valid = true → 0 < (l.wakeup t).wakeupFd.counter := by
    intro hvalid
    rw [EventLoop.wakeup]
    dsimp only
    rw [if_pos hvalid]
    apply l.wakeupFd.counter_write_pos
  constructor
  · apply h.conserved
  · apply h.inThread
  · apply h.looping
  · apply h.running
  · rw [EventLoop.wakeup]
    dsimp only
    split
    · obtain harmed | ⟨hsame, -⟩ := l.wakeupFd.armed_write
      · intro _
        left
        exact harmed
      · rw [hsame]
        apply h.armed
    · apply h.armed
  · intro hvalid _
    right; left
    apply hcounter hvalid
  · intro _ hwait
    right
    apply hcounter
    apply (h.running _).1
    rw [show l.pc = .waiting from hwait]
    simp

theorem loop (h : l.Sound) (t : T) :
  (l.loop t).Sound
  := by
  rw [EventLoop.loop]
  split
  · exact h
  · next henter =>
    simp only [Bool.or_eq_true, Bool.not_eq_true', not_or, Bool.not_eq_false,
      isInLoopThread, beq_iff_eq, Bool.not_eq_true] at henter
    obtain ⟨⟨hvalid, howner⟩, hlooping⟩ := henter
    have hout : l.pc = .outside := by
      by_contra hin
      rw [h.looping.mpr hin] at hlooping
      cases hlooping
    constructor
    · have hconserved := h.conserved
      rw [hout] at hconserved
      exact hconserved
    · apply h.inThread
    · simp
    · intro _
      exact ⟨hvalid, howner.symm⟩
    · intro hcounter
      obtain harmed | hread | ⟨hquit, -⟩ := h.armed hcounter
      · left
        exact harmed
      · rw [hout] at hread
        cases hread
      · right; right
        exact ⟨hquit, by simp⟩
    · intro _ hpending
      obtain hin | hcounter | hswap := h.woken hvalid hpending
      · left
        exact hin
      · right; left
        exact hcounter
      · rw [hout] at hswap
        cases hswap
    · intro _ hwait
      cases hwait

omit [DecidableEq T] in
/-- The thread of the loop goes on to another place. -/
theorem goTo (h : l.Sound) {pc : LoopPc F} (hin : l.pc ≠ .outside) (hin' : pc ≠ .outside)
    (hfunctors : pc.functors = l.pc.functors)
    (hread : 0 < l.wakeupFd.counter → l.pc.BeforeRead → pc.BeforeRead ∨ l.quit_ = true)
    (hswap : l.pc.BeforeSwap → pc.BeforeSwap) (hwait : pc = .waiting → l.quit_ = false) :
  Sound { l with pc }
  := by
  have hquit : l.quit_ = true → pc ≠ .waiting := by
    intro hquit hpc
    rw [hwait hpc] at hquit
    cases hquit
  constructor
  · dsimp only
    rw [hfunctors]
    apply h.conserved
  · apply h.inThread
  · apply iff_of_true (h.looping.mpr hin) hin'
  · intro _
    apply h.running hin
  · intro hcounter
    obtain harmed | hbefore | ⟨hquits, -⟩ := h.armed hcounter
    · left
      exact harmed
    · obtain hbefore | hquits := hread hcounter hbefore
      · right; left
        exact hbefore
      · right; right
        exact ⟨hquits, hquit hquits⟩
    · right; right
      exact ⟨hquits, hquit hquits⟩
  · intro hvalid hpending
    apply (h.woken hvalid hpending).imp_right (Or.imp_right hswap)
  · intro hquits hpc
    exact absurd hpc (hquit hquits)

omit [DecidableEq T] in
theorem leave (h : l.Sound) (hfunctors : l.pc.functors = [])
    (hread : ¬ l.pc.BeforeRead) (hswap : ¬ l.pc.BeforeSwap) :
  l.leave.Sound
  := by
  constructor
  · have hconserved := h.conserved
    rw [hfunctors] at hconserved
    exact hconserved
  · apply h.inThread
  · simp [EventLoop.leave]
  · intro hout
    exact absurd rfl hout
  · intro hcounter
    obtain harmed | hbefore | ⟨hquit, -⟩ := h.armed hcounter
    · left
      exact harmed
    · exact absurd hbefore hread
    · right; right
      exact ⟨hquit, by simp [EventLoop.leave]⟩
  · intro hvalid hpending
    apply (h.woken hvalid hpending).imp_right (Or.imp_right fun hbefore => absurd hbefore hswap)
  · intro _ hwait
    cases hwait

omit [DecidableEq T] in
theorem check (h : l.Sound) (hpc : l.pc = .check) :
  l.check.Sound
  := by
  rw [EventLoop.check]
  split
  · apply h.leave <;>
      simp [hpc, LoopPc.functors, LoopPc.BeforeRead, LoopPc.BeforeSwap]
  · next hquit =>
    apply h.goTo <;>
      simp [hpc, hquit, LoopPc.functors, LoopPc.BeforeRead, LoopPc.BeforeSwap]

omit [DecidableEq T] in
theorem epollWait (h : l.Sound) (hpc : l.pc = .waiting) (events : List LoopEvent) :
  (l.epollWait events).Sound
  := by
  have hcounter : (l.epollWait events).wakeupFd.counter = l.wakeupFd.counter := by
    rw [EventLoop.epollWait]
    dsimp only
    split <;> rfl
  have hrunning := h.running (by simp [hpc])
  constructor
  · have hconserved := h.conserved
    rw [hpc] at hconserved
    exact hconserved
  · apply h.inThread
  · apply iff_of_true (h.looping.mpr (by simp [hpc])) (by simp [EventLoop.epollWait])
  · intro _
    exact hrunning
  · rw [hcounter]
    intro hpos
    by_cases hwakeup : .wakeup ∈ events
    · right; left
      exact hwakeup
    · left
      rw [EventLoop.epollWait]
      dsimp only
      rw [if_neg hwakeup]
      obtain harmed | hread | ⟨-, hwait⟩ := h.armed hpos
      · exact harmed
      · rw [hpc] at hread
        cases hread
      · exact absurd hpc hwait
  · intro _ _
    right; right
    trivial
  · intro _ hwait
    cases hwait

omit [DecidableEq T] in
/-- The callback of the eventfd, which is empty then, or another one returns. -/
theorem afterCallback (h : l.Sound) {events : List LoopEvent}
    (hpc : l.pc = .callback events ∨ l.pc = .handleWakeup events ∧ l.wakeupFd.counter = 0) :
  (l.afterCallback events).Sound
  := by
  apply h.goTo
  · obtain hpc | ⟨hpc, -⟩ := hpc <;> simp [hpc]
  · simp
  · obtain hpc | ⟨hpc, -⟩ := hpc <;> rw [hpc] <;> rfl
  · intro hcounter hread
    split
    · next hquit =>
      right
      exact hquit
    · left
      obtain hpc | ⟨-, hempty⟩ := hpc
      · rw [hpc] at hread
        exact hread
      · omega
  · intro _
    trivial
  · intro hwait
    cases hwait

omit [DecidableEq T] in
theorem handleWakeup (h : l.Sound) {events : List LoopEvent} (hpc : l.pc = .handleWakeup events) :
  (l.handleWakeup events).Sound
  := by
  rw [EventLoop.handleWakeup, EventFd.read]
  by_cases hempty : l.wakeupFd.counter = 0
  · rw [if_pos hempty]
    apply h.afterCallback
    right
    exact ⟨hpc, hempty⟩
  · rw [if_neg hempty]
    constructor
    · apply h.conserved
    · apply h.inThread
    · apply h.looping
    · apply h.running
    · intro hcounter
      exact absurd hcounter (Nat.lt_irrefl 0)
    · intro _ _
      right; right
      dsimp only
      rw [hpc]
      trivial
    · intro _ hwait
      dsimp only at hwait
      rw [hpc] at hwait
      cases hwait

omit [DecidableEq T] in
theorem doPendingFunctors (h : l.Sound) (hpc : l.pc = .dispatch []) :
  l.doPendingFunctors.Sound
  := by
  constructor
  · have hconserved := h.conserved
    rw [hpc] at hconserved
    simpa [EventLoop.doPendingFunctors, LoopPc.functors] using hconserved
  · apply h.inThread
  · apply iff_of_true (h.looping.mpr (by simp [hpc])) (by simp [EventLoop.doPendingFunctors])
  · intro _
    apply h.running (by simp [hpc])
  · intro hcounter
    obtain harmed | hread | ⟨hquit, -⟩ := h.armed hcounter
    · left
      exact harmed
    · rw [hpc] at hread
      cases hread
    · right; right
      exact ⟨hquit, by simp [EventLoop.doPendingFunctors]⟩
  · intro _ hpending
    exact absurd rfl hpending
  · intro _ hwait
    cases hwait

omit [DecidableEq T] in
theorem execute (h : l.Sound) {functor : F} {functors : List F}
    (hpc : l.pc = .batch (functor :: functors)) :
  (l.execute functor functors).Sound
  := by
  have hrunning := h.running (by simp [hpc])
  constructor
  · have hconserved := h.conserved
    rw [hpc] at hconserved
    simpa [EventLoop.execute, LoopPc.functors] using hconserved
  · intro run hrun
    obtain hrun | hrun := List.mem_append.mp hrun
    · apply h.inThread run hrun
    · rw [List.mem_singleton.mp hrun]
      apply hrunning.2
  · apply iff_of_true (h.looping.mpr (by simp [hpc])) (by simp [EventLoop.execute])
  · intro _
    exact hrunning
  · intro hcounter
    obtain harmed | hread | ⟨hquit, -⟩ := h.armed hcounter
    · left
      exact harmed
    · rw [hpc] at hread
      cases hread
    · right; right
      exact ⟨hquit, by simp [EventLoop.execute]⟩
  · intro hvalid hpending
    apply (h.woken hvalid hpending).imp_right
    apply Or.imp_right
    rw [hpc]
    intro hswap
    cases hswap
  · intro _ hwait
    cases hwait

omit [DecidableEq T] in
theorem advance (h : l.Sound) {outcome : Outcome}
    (hadvance : l.advance l.pc outcome = some l') :
  l'.Sound
  := by
  generalize hpc : l.pc = pc at hadvance
  rw [EventLoop.advance.eq_def] at hadvance
  split at hadvance
  case h_1 =>
    cases hadvance
    apply h.check hpc
  case h_2 events =>
    split at hadvance
    · cases hadvance
      apply h.epollWait hpc events
    · cases hadvance
  case h_3 =>
    cases hadvance
    apply h.goTo <;> simp [hpc, LoopPc.functors, LoopPc.BeforeRead, LoopPc.BeforeSwap]
  case h_4 =>
    cases hadvance
    apply h.leave <;> simp [hpc, LoopPc.functors, LoopPc.BeforeRead, LoopPc.BeforeSwap]
  case h_5 =>
    cases hadvance
    apply h.goTo <;> simp [hpc, LoopPc.functors, LoopPc.BeforeRead, LoopPc.BeforeSwap]
  case h_6 =>
    cases hadvance
    apply h.goTo <;> simp +contextual [hpc, LoopPc.functors, LoopPc.BeforeRead, LoopPc.BeforeSwap]
  case h_7 =>
    cases hadvance
    apply h.goTo <;> simp +contextual [hpc, LoopPc.functors, LoopPc.BeforeRead, LoopPc.BeforeSwap]
  case h_8 =>
    cases hadvance
    apply h.doPendingFunctors hpc
  case h_9 =>
    cases hadvance
    apply h.handleWakeup hpc
  case h_10 =>
    cases hadvance
    apply h.afterCallback
    left
    exact hpc
  case h_11 =>
    cases hadvance
    apply h.execute hpc
  case h_12 =>
    cases hadvance
    apply h.goTo <;> simp [hpc, LoopPc.functors, LoopPc.BeforeRead, LoopPc.BeforeSwap]
  case h_13 =>
    cases hadvance
    apply h.goTo <;> simp [hpc, LoopPc.functors, LoopPc.BeforeRead, LoopPc.BeforeSwap]
  case h_14 => cases hadvance

theorem step (h : l.Sound) {label : Label T F} (hstep : l.step label = some l') :
  l'.Sound
  := by
  cases label with
  | queueInLoop t functor =>
    obtain ⟨-, heq⟩ := Option.ite_none_right_eq_some.mp hstep
    cases heq
    apply h.queueInLoop t functor
  | runInLoop t functor =>
    obtain ⟨-, heq⟩ := Option.ite_none_right_eq_some.mp hstep
    cases heq
    apply h.runInLoop t functor
  | quit t =>
    obtain ⟨ht, heq⟩ := Option.ite_none_right_eq_some.mp hstep
    cases heq
    apply h.quit ht
  | loop t =>
    obtain ⟨-, heq⟩ := Option.ite_none_right_eq_some.mp hstep
    cases heq
    apply h.loop t
  | wakeup t =>
    obtain ⟨-, heq⟩ := Option.ite_none_right_eq_some.mp hstep
    cases heq
    apply h.wakeup t
  | advance outcome =>
    obtain ⟨-, heq⟩ := Option.ite_none_left_eq_some.mp hstep
    apply h.advance heq

end Sound

theorem sound_of_reachable {loop : EventLoop T F} (h : system.Reachable loop) :
  loop.Sound
  := by
  apply h.invariant
  · rintro _ ⟨ownerThreadId, valid, maxEvents, rfl⟩
    apply new_sound ownerThreadId valid maxEvents
  · intro _ _ _ hsound _ hstep
    apply hsound.step hstep

/-- The functors that were pushed were executed in their order in the thread of the loop, or are
in the batch or in the queue; and a thread that waits without a ready event, while no thread is
about to wake it, has no functors to execute and is not to quit. -/
theorem tasks_of_reachable {loop : EventLoop T F} (h : system.Reachable loop) :
  loop.pushed = loop.executed.map Prod.snd ++ loop.pc.functors ++ loop.pendingFunctors
    ∧ (∀ run ∈ loop.executed, run.1 = loop.ownerThreadId)
    ∧ (loop.pc = .waiting → ¬ loop.wakeupFd.Ready → (∀ t, loop.inWakeup t = false) →
      loop.pendingFunctors = [] ∧ loop.quit_ = false)
  := by
  have hsound := sound_of_reachable h
  use hsound.conserved, hsound.inThread
  intro hwait hready hidle
  have hnone : ¬ ∃ t, loop.inWakeup t = true := by
    rintro ⟨t, ht⟩
    rw [hidle t] at ht
    cases ht
  have hempty : ¬ 0 < loop.wakeupFd.counter := by
    intro hcounter
    obtain harmed | hread | ⟨-, hnot⟩ := hsound.armed hcounter
    · apply hready ⟨harmed, hcounter⟩
    · rw [hwait] at hread
      cases hread
    · apply hnot hwait
  constructor
  · by_contra hpending
    have hvalid := (hsound.running (hwait ▸ by simp)).1
    obtain hin | hcounter | hswap := hsound.woken hvalid hpending
    · apply hnone hin
    · apply hempty hcounter
    · rw [hwait] at hswap
      cases hswap
  · by_contra hquit
    rw [Bool.not_eq_false] at hquit
    obtain hin | hcounter := hsound.quits hquit hwait
    · apply hnone hin
    · apply hempty hcounter

/-- A run of given steps. -/
theorem reachable_of_steps {loop loop' : EventLoop T F} (h : system.Reachable loop)
    {labels : List (Label T F)} (hsteps : labels.foldlM step loop = some loop') :
  system.Reachable loop'
  := by
  induction labels generalizing loop with
  | nil =>
    cases hsteps
    exact h
  | cons label labels ih =>
    rw [List.foldlM_cons, Option.bind_eq_bind, Option.bind_eq_some_iff] at hsteps
    obtain ⟨next, hstep, hsteps⟩ := hsteps
    apply ih (.step h trivial hstep) hsteps

/-- A loop that executed a functor of another thread, which a functor of its own followed, and
waits. -/
theorem tasks_waiting :
  ∃ loop : EventLoop Nat Nat, loop.executed = [(0, 7), (0, 8)] ∧ loop.pc = .waiting
    ∧ loop.pendingFunctors = [] ∧ loop.quit_ = false
  := by
  let steps : List (Label Nat Nat) :=
    [.loop 0, .advance .next, .queueInLoop 1 (some 7), .wakeup 1, .advance (.events [.wakeup]),
      .advance .next, .advance .next, .advance .next, .advance .next, .advance .next,
      .queueInLoop 0 (some 8), .wakeup 0, .advance .next, .advance .next, .advance .next,
      .advance (.events [.wakeup]), .advance .next, .advance .next, .advance .next,
      .advance .next, .advance .next, .advance .next, .advance .next, .advance .next]
  obtain ⟨loop, hsteps, hexecuted, hwait, hready, hidle⟩ :
      ∃ loop, steps.foldlM step (new 0 true 16) = some loop ∧ loop.executed = [(0, 7), (0, 8)]
        ∧ loop.pc = .waiting ∧ ¬ loop.wakeupFd.Ready ∧ ∀ t, loop.inWakeup t = false := by
    refine ⟨_, rfl, rfl, rfl, by decide, fun t => ?_⟩
    match t with
    | 0 => rfl
    | 1 => rfl
    | _ + 2 => rfl
  have hreachable := reachable_of_steps (.initial ⟨0, true, 16, rfl⟩) hsteps
  use loop, hexecuted, hwait
  apply (tasks_of_reachable hreachable).2.2 hwait hready hidle

end EventLoop

end RoomServer
