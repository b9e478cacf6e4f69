import RoomServer.Net.EventLoopThread

/-!
# The calls of the owner of a thread return

A start waits for the thread, and the destructor waits for the end of the thread, which may be in
the middle of anything the loop does: asleep in a wait, or about to execute a batch of functors.
From any state that is reached, the steps of the two threads end the call of the owner, whatever
their order: each lowers a rank, and one is always possible.
-/

namespace RoomServer

/-- The places of a loop by how far it is from leaving, or from a wait that reports nothing. -/
def LoopPc.rank {F : Type} (quits : Bool) (room : Nat) : LoopPc F → Nat
  | .outside => 0
  | .waiting => 1 + quits.toNat * (4 + 3 * room)
  | .check => 2
  | .batch functors => 3 + 2 * functors.length
  | .functor functors => 4 + 2 * functors.length
  | .dispatch events => 4 + 3 * events.length
  | .handleWakeup events | .callback events => 5 + 3 * events.length

/-- An eventfd on the ready list lets the loop wait once more, and one that is not empty is read
once more. -/
def EventFd.rank (fd : EventFd) : Nat :=
  7 * fd.armed.toNat + min 1 fd.counter

theorem EventFd.rank_le (fd : EventFd) :
  fd.rank ≤ 8
  := by
  have harmed := Bool.toNat_le fd.armed
  rw [EventFd.rank]
  omega

/-- The rank of a loop: also its thread may be about to wake it, and functors may wait. -/
def EventLoop.rank {F : Type} (loop : EventLoop Party F) : Nat :=
  9 * (loop.inWakeup .worker).toNat + loop.wakeupFd.rank + loop.pc.rank loop.quit_ loop.maxEvents
    + 2 * loop.pendingFunctors.length

/-- The places of the owner; the call of `quit` lets the loop wait once more. -/
def OwnerPc.rank (room : Nat) : OwnerPc → Nat
  | .idle | .destroyed => 0
  | .join | .joinFailed | .asleep => 1
  | .check => 2
  | .lock => 3
  | .wakeup => 10
  | .quit => 15 + 3 * room
  | .lockToQuit => 16 + 3 * room

theorem OwnerPc.rank_mono (owner : OwnerPc) {room room' : Nat} (h : room ≤ room') :
  owner.rank room ≤ owner.rank room'
  := by
  cases owner <;> simp only [OwnerPc.rank] <;> omega

/-- The places of the thread. -/
def WorkerPc.rank : WorkerPc → Nat
  | .none | .done => 0
  | .exit => 1
  | .clear => 2
  | .lockEnd | .notifyFailed => 3
  | .running | .setFailed => 4
  | .lockFailed => 5
  | .run => 7
  | .notifyLoop => 10
  | .setLoop => 11
  | .lockLoop => 12
  | .create => 13

/-- The outcomes that do not put off the end of a call: a loop that is not to quit gets no events
but the one of its eventfd. -/
def EventLoop.Outcome.IsOwn (quits : Bool) : EventLoop.Outcome → Prop
  | .next | .noCallback => True
  | .events reported => quits = true ∨ reported = [.wakeup]
  | .interrupted => quits = true
  | .failed => False

namespace EventLoopThread

variable {F : Type}

/-- The largest number of events of the loop that is there. -/
def room (thread : EventLoopThread F) : Nat := thread.loop.elim 0 EventLoop.maxEvents

def rank (thread : EventLoopThread F) : Nat :=
  thread.owner.rank thread.room + thread.worker.rank + thread.loop.elim 0 EventLoop.rank

/-- The steps of the two threads on their own: no call begins, and nobody is woken for no reason.
Functors and callbacks return, and push nothing. -/
def Own (thread : EventLoopThread F) : Label F → Prop
  | .owner | .worker | .create _ _ | .inLoop (.wakeup _) => True
  | .inLoop (.advance outcome) =>
    outcome.IsOwn (thread.loop.any fun loop => loop.quit_)
  | _ => False

/-- The owner is in no call. -/
def Returned (thread : EventLoopThread F) : Prop :=
  thread.owner = .idle ∨ thread.owner = .destroyed

variable {thread thread' : EventLoopThread F}

/-! ### Each step lowers the rank -/

theorem rank_wakeup_lt {loop : EventLoop Party F} (hcall : loop.inWakeup .worker = true) :
  (loop.wakeup .worker).rank < loop.rank
  := by
  have hwritten := (loop.wakeup .worker).wakeupFd.rank_le
  have hpc : (loop.wakeup .worker).pc.rank (loop.wakeup .worker).quit_
      (loop.wakeup .worker).maxEvents = loop.pc.rank loop.quit_ loop.maxEvents := rfl
  have hpending : (loop.wakeup .worker).pendingFunctors = loop.pendingFunctors := rfl
  have hdone : (loop.wakeup .worker).inWakeup .worker = false := by
    simp [EventLoop.wakeup]
  rw [EventLoop.rank, EventLoop.rank, hpc, hpending, hdone, hcall, Bool.toNat_true,
    Bool.toNat_false]
  omega

/-- A wait reports events: the one of the eventfd leaves the ready list. -/
theorem rank_epollWait_lt {loop : EventLoop Party F} {events : List LoopEvent}
    (hpc : loop.pc = .waiting) (hown : loop.quit_ = true ∨ events = [.wakeup])
    (hreports : loop.Reports events) :
  (loop.epollWait events).rank < loop.rank
  := by
  obtain ⟨-, hroom, -, hready⟩ := hreports
  by_cases hwakeup : .wakeup ∈ events
  · have harmed : loop.wakeupFd.rank = (loop.epollWait events).wakeupFd.rank + 7 := by
      simp only [EventFd.rank, EventLoop.epollWait, if_pos hwakeup, (hready hwakeup).1,
        Bool.toNat_true, Bool.toNat_false]
      omega
    rw [EventLoop.rank, EventLoop.rank, harmed, hpc]
    simp only [EventLoop.epollWait, LoopPc.rank]
    obtain hquit | hevents := hown
    · rw [hquit, Bool.toNat_true]
      omega
    · rw [show events.length = 1 from congrArg List.length hevents]
      omega
  · obtain hquit | rfl := hown
    · simp only [EventLoop.rank, EventLoop.epollWait, if_neg hwakeup, hpc, LoopPc.rank, hquit,
        Bool.toNat_true]
      omega
    · exact absurd List.mem_cons_self hwakeup

theorem rank_afterCallback_lt {loop : EventLoop Party F} {events : List LoopEvent}
    (hpc : loop.pc = .callback events ∨ loop.pc = .handleWakeup events) :
  (loop.afterCallback events).rank < loop.rank
  := by
  have hevents : (if loop.quit_ then [] else events).length ≤ events.length := by
    split
    · apply Nat.zero_le
    · apply Nat.le_refl
  obtain hpc | hpc := hpc <;>
    · simp only [EventLoop.rank, EventLoop.afterCallback, hpc, LoopPc.rank]
      omega

theorem rank_handleWakeup_lt {loop : EventLoop Party F} {events : List LoopEvent}
    (hpc : loop.pc = .handleWakeup events) :
  (loop.handleWakeup events).rank < loop.rank
  := by
  rw [EventLoop.handleWakeup, EventFd.read]
  by_cases hempty : loop.wakeupFd.counter = 0
  · rw [if_pos hempty]
    apply rank_afterCallback_lt (.inr hpc)
  · rw [if_neg hempty]
    simp only [EventLoop.rank, EventFd.rank, hpc, LoopPc.rank]
    omega

theorem rank_advance_lt {loop loop' : EventLoop Party F} {outcome : EventLoop.Outcome}
    (hown : outcome.IsOwn loop.quit_) (hadvance : loop.advance loop.pc outcome = some loop') :
  loop'.rank < loop.rank
  := by
  generalize hpc : loop.pc = pc at hadvance
  rw [EventLoop.advance.eq_def] at hadvance
  split at hadvance
  case h_1 =>
    cases hadvance
    rw [EventLoop.check]
    split
    · simp only [EventLoop.rank, EventLoop.leave, hpc, LoopPc.rank]
      omega
    · next hquit =>
      simp only [EventLoop.rank, hpc, LoopPc.rank, Bool.not_eq_true _ ▸ hquit, Bool.toNat_false]
      omega
  case h_2 events =>
    split at hadvance
    · next hreports =>
      cases hadvance
      apply rank_epollWait_lt hpc hown hreports
    · cases hadvance
  case h_3 =>
    cases hadvance
    have hquit : loop.quit_ = true := hown
    simp only [EventLoop.rank, hpc, LoopPc.rank, hquit, Bool.toNat_true]
    omega
  case h_4 => exact hown.elim
  case h_9 events =>
    cases hadvance
    apply rank_handleWakeup_lt hpc
  case h_10 events =>
    cases hadvance
    apply rank_afterCallback_lt (.inl hpc)
  case h_14 => cases hadvance
  all_goals
    cases hadvance
    simp only [EventLoop.rank, EventLoop.doPendingFunctors, EventLoop.execute, hpc, LoopPc.rank,
      List.length_nil, List.length_cons]
    omega

/-- A loop that is to quit may wait once more. -/
theorem rank_quit_le (loop : EventLoop Party F) :
  (loop.quit .owner).rank ≤ loop.rank + 4 + 3 * loop.maxEvents
  := by
  have hworker : (loop.quit .owner).inWakeup .worker = loop.inWakeup .worker := by
    rw [EventLoop.quit]
    dsimp only
    split <;> simp
  have hpc : loop.pc.rank true loop.maxEvents
      ≤ loop.pc.rank loop.quit_ loop.maxEvents + 4 + 3 * loop.maxEvents := by
    cases loop.pc <;> simp only [LoopPc.rank, Bool.toNat_true] <;> omega
  rw [EventLoop.rank, EventLoop.rank, hworker]
  simp only [EventLoop.quit]
  omega

theorem rank_wakeup_le (loop : EventLoop Party F) :
  (loop.wakeup .owner).rank ≤ loop.rank + 8
  := by
  have hwritten := (loop.wakeup .owner).wakeupFd.rank_le
  have hworker : (loop.wakeup .owner).inWakeup .worker = loop.inWakeup .worker := by
    simp [EventLoop.wakeup]
  rw [EventLoop.rank, EventLoop.rank, hworker]
  simp only [EventLoop.wakeup] at hwritten ⊢
  omega

theorem rank_loop_le (loop : EventLoop Party F) :
  (loop.loop .worker).rank ≤ loop.rank + 2
  := by
  rw [EventLoop.loop]
  split
  · omega
  · simp only [EventLoop.rank, LoopPc.rank]
    omega

theorem rank_notifyOne_le (room : Nat) :
  thread.notifyOne.owner.rank room ≤ thread.owner.rank room + 2
  := by
  obtain hsame | ⟨hasleep, hlock⟩ := thread.notifyOne_owner
  · rw [hsame]
    omega
  · rw [hlock, hasleep]
    simp only [OwnerPc.rank]
    omega

theorem rank_ownerStep_lt (hstep : thread.ownerStep = some thread') :
  thread'.rank < thread.rank
  := by
  rw [ownerStep] at hstep
  split at hstep
  case h_1 hpc =>
    obtain ⟨-, heq⟩ := Option.ite_none_right_eq_some.mp hstep
    cases heq
    simp [rank, hpc, OwnerPc.rank]
  case h_2 hpc =>
    split at hstep
    · cases hstep
      cases thread.startFailed <;> simp [rank, hpc, OwnerPc.rank]
    · cases hstep
      simp [rank, hpc, OwnerPc.rank]
  case h_3 hpc =>
    obtain ⟨-, heq⟩ := Option.ite_none_right_eq_some.mp hstep
    cases heq
    simp [rank, hpc, OwnerPc.rank]
  case h_4 hpc =>
    obtain ⟨-, heq⟩ := Option.ite_none_right_eq_some.mp hstep
    cases heq
    simp [rank, room, hpc, OwnerPc.rank]
  case h_5 hpc =>
    split at hstep
    · cases hstep
      cases hloop : thread.loop with
      | none => simp [rank, room, useLoop, hloop, hpc, OwnerPc.rank]
      | some loop =>
        have hquit := rank_quit_le loop
        rw [useLoop_of_some hloop]
        simp only [rank, room, hloop, hpc, OwnerPc.rank, Option.elim_some]
        omega
    · cases hstep
      simp only [rank, room, hpc, OwnerPc.rank]
      omega
  case h_6 hpc =>
    cases hstep
    cases hloop : thread.loop with
    | none => simp [rank, useLoop, hloop, hpc, OwnerPc.rank]
    | some loop =>
      have hwakeup := rank_wakeup_le loop
      rw [useLoop_of_some hloop]
      simp only [rank, hloop, hpc, OwnerPc.rank, Option.elim_some]
      omega
  case h_7 hpc =>
    obtain ⟨-, heq⟩ := Option.ite_none_right_eq_some.mp hstep
    cases heq
    simp [rank, hpc, OwnerPc.rank]
  all_goals cases hstep

theorem rank_workerStep_lt (hstep : thread.workerStep = some thread') :
  thread'.rank < thread.rank
  := by
  rw [workerStep] at hstep
  split at hstep
  case h_3 hpc =>
    cases hstep
    have hnotify := thread.rank_notifyOne_le 0
    have hroom := thread.owner.rank_mono (Nat.zero_le thread.room)
    simp only [rank, room, hpc, WorkerPc.rank, Option.elim_none] at hroom ⊢
    omega
  case h_6 hpc =>
    cases hstep
    have hnotify := thread.rank_notifyOne_le thread.room
    simp only [rank, room, hpc, WorkerPc.rank] at hnotify ⊢
    have hloop : thread.notifyOne.loop = thread.loop := rfl
    rw [hloop]
    omega
  case h_7 hpc =>
    cases hstep
    cases hloop : thread.loop with
    | none => simp [rank, room, useLoop, hloop, hpc, WorkerPc.rank]
    | some loop =>
      have hrank := rank_loop_le loop
      have hsame : (loop.loop .worker).maxEvents = loop.maxEvents := by
        rw [EventLoop.loop]
        split <;> rfl
      rw [useLoop_of_some hloop]
      simp only [rank, room, hloop, hpc, WorkerPc.rank, Option.elim_some, hsame]
      omega
  case h_11 hpc =>
    cases hstep
    have hroom := thread.owner.rank_mono (Nat.zero_le thread.room)
    simp only [rank, room, hpc, WorkerPc.rank, Option.elim_none] at hroom ⊢
    omega
  case h_12 => cases hstep
  case h_13 => cases hstep
  case h_14 => cases hstep
  case h_2 hpc =>
    cases hstep
    simp [rank, room, hpc, WorkerPc.rank]
  case h_5 hpc =>
    cases hstep
    simp [rank, room, hpc, WorkerPc.rank]
  case h_10 hpc =>
    cases hstep
    simp [rank, room, hpc, WorkerPc.rank]
  all_goals
    obtain ⟨-, heq⟩ := Option.ite_none_right_eq_some.mp hstep
    cases heq
    simp [rank, room, WorkerPc.rank, *]

theorem rank_create_lt (h : thread.Inv) (hpc : thread.worker = .create) (valid : Bool)
    (maxEvents : Nat) :
  EventLoopThread.rank { thread with
    loop := some (EventLoop.new .worker valid maxEvents : EventLoop Party F)
    worker := if valid then .lockLoop else .lockFailed } < thread.rank
  := by
  have hmeets := h.meets
  rw [hpc] at hmeets
  have howner : ∀ room, thread.owner.rank room = thread.owner.rank 0 := by
    intro room
    revert hmeets
    generalize thread.owner = owner
    cases owner <;> grind [EventLoopThread.meets, WorkerPc.serves, OwnerPc.rank]
  have hnew : (EventLoop.new .worker valid maxEvents : EventLoop Party F).rank = 0 := rfl
  rw [rank, rank, howner, howner thread.room, hpc]
  simp only [Option.elim_some, hnew]
  cases valid <;> simp only [Bool.false_eq_true, if_true, if_false, WorkerPc.rank] <;> omega

/-- A step of the two threads keeps the invariant, and lowers the rank. -/
theorem rank_own_lt {label : Label F} (h : thread.Inv) (hown : Own thread label)
    (hstep : Step thread label thread') :
  thread'.Inv ∧ thread'.rank < thread.rank
  := by
  cases label with
  | startLoop => cases hown
  | destroy => cases hown
  | use label => cases hown
  | owner => exact ⟨h.ownerStep hstep, rank_ownerStep_lt hstep⟩
  | spurious => cases hown
  | create valid maxEvents =>
    obtain ⟨hpc, rfl⟩ := hstep
    exact ⟨h.create hpc valid maxEvents, rank_create_lt h hpc valid maxEvents⟩
  | worker => exact ⟨h.workerStep hstep, rank_workerStep_lt hstep⟩
  | inLoop label =>
    obtain ⟨hpc, huses, loop, loop', hloop, hcall, rfl⟩ := hstep
    have hlt : label ≠ .advance .failed ∧ loop'.maxEvents = loop.maxEvents
        ∧ loop'.rank < loop.rank := by
      cases label with
      | wakeup t =>
        obtain ⟨hkept, -, -⟩ := kept_of_call huses (by rintro _ ⟨⟩) hcall
        obtain ⟨hwakes, heq⟩ := Option.ite_none_right_eq_some.mp hcall
        cases heq
        rw [show t = .worker from huses] at hwakes ⊢
        exact ⟨by rintro ⟨⟩, hkept.room, rank_wakeup_lt hwakes⟩
      | advance outcome =>
        obtain ⟨-, hadvance⟩ := Option.ite_none_left_eq_some.mp hcall
        obtain ⟨hkept, -, -⟩ := kept_of_advance hadvance
        simp only [Own, hloop, Option.any_some] at hown
        refine ⟨?_, hkept.room, rank_advance_lt hown hadvance⟩
        rintro ⟨⟩
        exact hown
      | queueInLoop t functor => cases hown
      | runInLoop t functor => cases hown
      | quit t => cases hown
      | loop t => cases hown
    obtain ⟨hfailed, hroom, hlt⟩ := hlt
    apply And.intro (h.inLoop hpc huses hfailed hloop hcall)
    simp only [rank, room, hloop, Option.elim_some, hroom]
    omega

/-! ### A step is possible -/

/-- The thread goes on with its loop when it is to quit. -/
theorem exists_inLoop_step (h : thread.Inv) (hpc : thread.worker = .running)
    {loop : EventLoop Party F} (hloop : thread.loop = some loop) (hquit : loop.quit_ = true)
    (hcalls : loop.inWakeup .owner = false) :
  ∃ label thread', Own thread label ∧ Step thread label thread'
  := by
  have hhosts := h.hosts loop hloop
  by_cases hout : loop.pc = .outside
  · refine ⟨.worker, { thread with worker := .lockEnd }, trivial, ?_⟩
    simp only [Step, workerStep, hpc, hloop, Option.any_some, hout, LoopPc.isOutside, if_true]
  · by_cases hwakes : loop.inWakeup .worker = true
    · refine ⟨.inLoop (.wakeup .worker), _, trivial, hpc, rfl, loop, _, hloop, if_pos hwakes, rfl⟩
    · have hthread := (hhosts.sound.running hout).2.trans hhosts.owner
      have hgo : ∀ outcome loop', outcome.IsOwn true →
          loop.advance loop.pc outcome = some loop' →
            ∃ label thread', Own thread label ∧ Step thread label thread' := by
        intro outcome loop' hown hadvance
        refine ⟨.inLoop (.advance outcome), { thread with loop := some loop' }, ?_, hpc, rfl, loop,
          loop', hloop, ?_, rfl⟩
        · simp only [Own, hloop, Option.any_some, hquit]
          exact hown
        · rw [EventLoop.step, hthread, if_neg hwakes, hadvance]
      cases hplace : loop.pc with
      | outside => exact absurd hplace hout
      | waiting =>
        have hempty : 0 < loop.wakeupFd.counter := by
          obtain ⟨t, ht⟩ | hcounter := hhosts.sound.quits hquit hplace
          · cases t with
            | owner =>
              rw [hcalls] at ht
              cases ht
            | worker => exact absurd ht hwakes
          · exact hcounter
        have harmed : loop.wakeupFd.armed = true := by
          obtain harmed | hread | ⟨-, hnot⟩ := hhosts.sound.armed hempty
          · exact harmed
          · rw [hplace] at hread
            cases hread
          · exact absurd hplace hnot
        have hreports : loop.Reports [.wakeup] := by
          refine ⟨by simp, hhosts.room, by simp, ?_⟩
          intro _
          exact ⟨harmed, hempty⟩
        apply hgo (.events [.wakeup]) (loop.epollWait [.wakeup]) (.inl rfl)
        rw [hplace, EventLoop.advance, if_pos hreports]
      | check => apply hgo .next _ trivial (by rw [hplace, EventLoop.advance])
      | dispatch events =>
        cases events with
        | nil => apply hgo .next _ trivial (by rw [hplace, EventLoop.advance])
        | cons event events =>
          cases event with
          | wakeup => apply hgo .next _ trivial (by rw [hplace, EventLoop.advance])
          | other _ => apply hgo .next _ trivial (by rw [hplace, EventLoop.advance])
      | handleWakeup events => apply hgo .next _ trivial (by rw [hplace, EventLoop.advance])
      | callback events => apply hgo .next _ trivial (by rw [hplace, EventLoop.advance])
      | batch functors =>
        cases functors with
        | nil => apply hgo .next _ trivial (by rw [hplace, EventLoop.advance])
        | cons functor functors => apply hgo .next _ trivial (by rw [hplace, EventLoop.advance])
      | functor functors => apply hgo .next _ trivial (by rw [hplace, EventLoop.advance])

theorem mutex_eq_none (h : thread.Inv) (howner : thread.owner.holds = false)
    (hworker : thread.worker.holds = false) :
  thread.mutex = none
  := by
  cases hmutex : thread.mutex with
  | none => rfl
  | some party =>
    cases party with
    | owner =>
      rw [h.ownerHolds.mp hmutex] at howner
      cases howner
    | worker =>
      rw [h.workerHolds.mp hmutex] at hworker
      cases hworker

/-- The thread goes on outside of its loop when the owner does not hold the mutex. -/
theorem exists_worker_step (h : thread.Inv) (howner : thread.owner.holds = false)
    (hthere : thread.worker.lives = true) (hrunning : thread.worker ≠ .running) :
  ∃ label thread', Own thread label ∧ Step thread label thread'
  := by
  have hgo : (∃ thread', thread.workerStep = some thread') →
      ∃ label thread', Own thread label ∧ Step thread label thread' := by
    rintro ⟨thread', hstep⟩
    exact ⟨.worker, thread', trivial, hstep⟩
  have hfree := mutex_eq_none h howner
  apply hgo
  rw [workerStep]
  cases hpc : thread.worker with
  | none | create | done =>
    rw [hpc] at hthere
    cases hthere
  | running => exact absurd hpc hrunning
  | lockFailed | lockLoop | lockEnd =>
    dsimp only
    rw [if_pos (hfree (by rw [hpc]; rfl))]
    exact ⟨_, rfl⟩
  | _ => exact ⟨_, rfl⟩

/-- The owner gets the mutex, or the thread that holds it goes on. -/
theorem exists_step_of_lock (h : thread.Inv) (howner : thread.owner.holds = false)
    {thread' : EventLoopThread F}
    (hstep : thread.mutex = none → thread.ownerStep = some thread') :
  ∃ label thread', Own thread label ∧ Step thread label thread'
  := by
  by_cases hholds : thread.worker.holds = true
  · apply exists_worker_step h howner
    · revert hholds
      cases thread.worker <;> simp [WorkerPc.holds, WorkerPc.lives]
    · intro hrunning
      rw [hrunning] at hholds
      cases hholds
  · have hfree := mutex_eq_none h howner (Bool.not_eq_true _ ▸ hholds)
    exact ⟨.owner, thread', trivial, hstep hfree⟩

theorem exists_owner_step (h : ∃ thread', thread.ownerStep = some thread') :
  ∃ label thread', Own thread label ∧ Step thread label thread'
  := by
  obtain ⟨thread', hstep⟩ := h
  exact ⟨.owner, thread', trivial, hstep⟩

/-- The thread that the owner waits for to start has not notified it yet. -/
theorem exists_step_of_asleep (h : thread.Inv) (hpc : thread.owner = .asleep) :
  ∃ label thread', Own thread label ∧ Step thread label thread'
  := by
  have hmeets := h.meets
  rw [hpc] at hmeets
  by_cases hcreate : thread.worker = .create
  · exact ⟨.create true 0, _, trivial, hcreate, rfl⟩
  · apply exists_worker_step h (by rw [hpc]; rfl)
    · revert hmeets hcreate
      generalize thread.worker = worker
      cases worker <;> grind [EventLoopThread.meets, WorkerPc.starts, WorkerPc.lives]
    · intro hrunning
      rw [hrunning] at hmeets
      grind [EventLoopThread.meets, WorkerPc.starts]

/-- The thread that failed to start ends. -/
theorem exists_step_of_joinFailed (h : thread.Inv) (hpc : thread.owner = .joinFailed) :
  ∃ label thread', Own thread label ∧ Step thread label thread'
  := by
  have hmeets := h.meets
  rw [hpc] at hmeets
  by_cases hdone : thread.worker = .done
  · apply exists_owner_step
    rw [ownerStep, hpc]
    dsimp only
    rw [if_pos hdone]
    exact ⟨_, rfl⟩
  · have hnotify : thread.worker = .notifyFailed := by
      grind [EventLoopThread.meets]
    apply exists_worker_step h (by rw [hpc]; rfl)
    · rw [hnotify]
      rfl
    · rw [hnotify]
      rintro ⟨⟩

/-- The thread of a destructor ends: its loop is to quit, and was woken. -/
theorem exists_step_of_join (h : thread.Inv) (hpc : thread.owner = .join) :
  ∃ label thread', Own thread label ∧ Step thread label thread'
  := by
  have hmeets := h.meets
  rw [hpc] at hmeets
  by_cases hend : thread.worker = .none ∨ thread.worker = .done
  · apply exists_owner_step
    rw [ownerStep, hpc]
    dsimp only
    rw [if_pos hend]
    exact ⟨_, rfl⟩
  · have hlives : thread.worker.lives = true ∧ thread.result = true := by
      revert hmeets hend
      generalize thread.worker = worker
      cases worker <;> grind [EventLoopThread.meets, WorkerPc.serves, WorkerPc.lives]
    by_cases hrunning : thread.worker = .running
    · obtain ⟨loop, hloop, hhosts⟩ := h.exists_loop hlives.1
      apply exists_inLoop_step h hrunning hloop
      · rw [hhosts.quits, hpc, hlives.2]
        rfl
      · by_contra hcall
        obtain hwakeup | ⟨hidle, -⟩ := hhosts.calls (Bool.not_eq_false _ ▸ hcall)
        · rw [hpc] at hwakeup
          cases hwakeup
        · rw [hpc] at hidle
          cases hidle
    · apply exists_worker_step h (by rw [hpc]; rfl) hlives.1 hrunning

/-- In the middle of a call a step is possible. -/
theorem exists_own_step (h : thread.Inv) (hbusy : ¬ thread.Returned) :
  ∃ label thread', Own thread label ∧ Step thread label thread'
  := by
  cases hpc : thread.owner with
  | idle => exact absurd (.inl hpc) hbusy
  | destroyed => exact absurd (.inr hpc) hbusy
  | lock | lockToQuit =>
    apply exists_step_of_lock h (by rw [hpc]; rfl)
    intro hfree
    rw [ownerStep, hpc]
    dsimp only
    rw [if_pos hfree]
  | check | quit =>
    apply exists_owner_step
    rw [ownerStep, hpc]
    dsimp only
    split <;> exact ⟨_, rfl⟩
  | wakeup =>
    apply exists_owner_step
    rw [ownerStep, hpc]
    exact ⟨_, rfl⟩
  | asleep => apply exists_step_of_asleep h hpc
  | joinFailed => apply exists_step_of_joinFailed h hpc
  | join => apply exists_step_of_join h hpc

/-- The calls of the owner return: from any state that is reached, however the two threads go on,
they go on until the owner is in no call. -/
theorem returns_of_reachable (h : system.ReachableBy NoFailure thread) :
  system.Inevitable Own Returned thread
  := by
  apply System.inevitable_of_rank rank _ _ (inv_of_reachable h)
  · intro thread hinv hbusy
    apply exists_own_step hinv hbusy
  · intro thread label thread' hinv hown hstep
    apply rank_own_lt hinv hown hstep

/-- A destructor that finds a loop which is about to run. -/
theorem destroyed_returns :
  ∃ thread : EventLoopThread Nat, thread.owner = .lockToQuit ∧ thread.worker = .run
    ∧ system.Inevitable Own Returned thread
  := by
  obtain ⟨thread, h, howner, -, hworker, hidle⟩ := exists_started
  use { thread with owner := .lockToQuit }, rfl, hworker
  apply returns_of_reachable
  apply h.step (ℓ := Label.destroy) trivial ⟨howner, hidle, rfl⟩

end EventLoopThread

end RoomServer
