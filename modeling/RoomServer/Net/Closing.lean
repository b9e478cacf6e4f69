import RoomServer.Net.Outbound

/-!
# Closing a connection

A connection that has left the connected state never comes back to it.  The step that takes it
there starts the close callback, and no other step does; the descriptor is closed by
`connectDestroyed` only.
-/

namespace RoomServer

namespace Connection

@[simp]
theorem close_releaseWriteBytes (connection : Connection) (len : Nat) :
  (connection.releaseWriteBytes len).close = connection.close
  := by
  rw [releaseWriteBytes]
  split
  · rfl
  · split <;> rfl

@[simp]
theorem close_clearWriteBufferInLoop (connection : Connection) :
  connection.clearWriteBufferInLoop.close = connection.close
  := by
  rw [clearWriteBufferInLoop]
  split
  · rfl
  · apply close_releaseWriteBytes _ _

theorem readFromSocket_close {connection connection' : Connection} {reads : List ReadOutcome}
    {success : Bool} (h : connection.readFromSocket reads = some (success, connection')) :
  connection'.close = connection.close
  := by
  rw [readFromSocket_eq h]

theorem reserveWriteBytes_open {connection connection' : Connection} {len : Nat}
    {spurious : Bool} {reservation : Reservation} {verdict : Attempt}
    (h : connection.reserveWriteBytes len spurious reservation = (verdict, connection')) :
  connection'.state = connection.state ∧ connection'.close = connection.close
  := by
  rw [reserveWriteBytes.eq_def] at h
  split at h <;>
    split at h <;>
    cases h <;>
    exact ⟨rfl, rfl⟩

end Connection

open Connection

namespace IoRun

variable {run run' run'' : IoRun}

instance (run : IoRun) : Decidable run.Left := inferInstanceAs (Decidable (_ ∨ _))

/-- The close callbacks that run or are still to come. -/
def closing (run : IoRun) : Nat :=
  run.callers.count .handleClose + if run.Left then 0 else 1

/-- The connection was destroyed, or its descriptor is closed. -/
def Destroyed (run : IoRun) : Prop :=
  run.connection.state = .disconnected ∨ run.connection.close = true

/-- The connection was destroyed, or it will be. -/
def Condemned (run : IoRun) : Prop :=
  run.Destroyed ∨ .connectDestroyed ∈ run.functors ++ run.pendingFunctors

/-- No close callback is lost or made up, and nothing new destroys the connection. -/
structure Lives (run run' : IoRun) : Prop where
  closing : run'.closing = run.closing
  condemned : run'.Condemned → run.Condemned

theorem Lives.trans (h : run.Lives run') (h' : run'.Lives run'') : run.Lives run'' :=
  ⟨h'.closing.trans h.closing, fun hcondemned => h.condemned (h'.condemned hcondemned)⟩

/-- The state, the close callbacks and the queues stay as they are. -/
theorem lives_of_same (hcallers : run'.callers.count .handleClose = run.callers.count .handleClose)
    (hstate : run'.connection.state = run.connection.state)
    (hclose : run'.connection.close = run.connection.close)
    (hfunctors : .connectDestroyed ∈ run'.functors ++ run'.pendingFunctors →
      .connectDestroyed ∈ run.functors ++ run.pendingFunctors) :
  run.Lives run'
  := by
  have hleft : run'.Left ↔ run.Left := by rw [Left, Left, hstate]
  constructor
  · rw [IoRun.closing, IoRun.closing, hcallers, if_congr hleft rfl rfl]
  · rintro (hdestroyed | hfunctor)
    · left
      rw [Destroyed, hstate, hclose] at hdestroyed
      exact hdestroyed
    · right
      apply hfunctors hfunctor

theorem lives_refl (run : IoRun) : run.Lives run := ⟨rfl, id⟩

theorem left_handleClose (run : IoRun) : run.handleClose.Left := by
  obtain ⟨hleft, hclose⟩ | ⟨-, hclose⟩ := run.handleClose_cases
  · rw [hclose]
    exact hleft
  · rw [hclose]
    left
    apply state_clearWriteBufferInLoop _

/-- The connection is closed, and calls its close callback unless it was closed before. -/
theorem handleClose_lives (run : IoRun) :
  run.Lives run.handleClose
  := by
  have hleft := run.left_handleClose
  obtain ⟨-, hclose⟩ | ⟨hopen, hclose⟩ := run.handleClose_cases
  · rw [hclose]
    exact lives_of_same rfl rfl rfl id
  · rw [hclose] at hleft ⊢
    constructor
    · rw [IoRun.closing, IoRun.closing, if_pos hleft, if_neg (show ¬run.Left from hopen)]
      rw [Nat.add_zero]
      apply List.count_cons_self
    · rintro (hdestroyed | hfunctor)
      · left; right
        rw [Destroyed] at hdestroyed
        simpa using hdestroyed
      · right
        exact hfunctor

theorem connectEstablished_lives (run : IoRun) (added : Bool) :
  run.Lives (run.connectEstablished added)
  := by
  obtain hsame | ⟨hstate, -, -, hestablish⟩ | hclose := run.connectEstablished_cases added
  · rw [hsame]
    apply run.lives_refl
  · rw [hestablish]
    constructor
    · simp [IoRun.closing, Left, establish, hstate]
    · rintro (hdestroyed | hfunctor)
      · left; right
        simpa [Destroyed, establish] using hdestroyed
      · right
        exact hfunctor
  · rw [hclose]
    apply run.handleClose_lives

theorem Ends.lives (h : run.Ends run') : run.Lives run' := by
  cases h with
  | close => apply run.handleClose_lives
  | _ => exact lives_of_same rfl rfl rfl id

theorem handleEvent_lives {events : UInt32} {reads : List ReadOutcome}
    (h : run.handleEvent events reads = some run') :
  run.Lives run'
  := by
  obtain ⟨-, hends⟩ | ⟨-, success, connection, hread, rfl⟩ := handleEvent_cases h
  · apply hends.lives
  have hstate := (readFromSocket_same hread).state
  have hclose := readFromSocket_close hread
  cases success with
  | false =>
    apply Lives.trans _ (handleClose_lives _)
    exact lives_of_same rfl hstate hclose id
  | true =>
    apply lives_of_same (List.count_cons_of_ne (by simp)) hstate hclose
    exact id

theorem sendInLoop_lives (run : IoRun) (send : Send) :
  run.Lives (run.sendInLoop send)
  := by
  rw [sendInLoop]
  split
  · apply lives_of_same <;> simp
  · exact lives_of_same rfl rfl rfl id

theorem writeToSocket_lives {events : Option UInt32} (hpc : run.pc = .writeToSocket events)
    (outcome : WriteOutcome) :
  run.Lives (run.writeToSocket events outcome)
  := by
  obtain hends | hsame | ⟨k, -, heq⟩ := writeToSocket_cases hpc outcome
  · apply hends.lives
  · rw [hsame]
    apply run.lives_refl
  · rw [heq]
    apply lives_of_same <;> simp

theorem updateFd_lives (run : IoRun) (success : Bool) :
  run.Lives (run.updateFd success)
  := by
  rw [updateFd]
  split
  · exact lives_of_same rfl rfl rfl id
  · apply run.handleClose_lives

theorem runFunctor_lives (run : IoRun) (now : Int) (added : Bool) {functor : Functor}
    (h : functor ≠ .connectDestroyed) :
  run.Lives (run.runFunctor now added functor)
  := by
  cases functor with
  | sendInLoop send => exact lives_of_same rfl rfl rfl id
  | handleClose => apply run.handleClose_lives
  | checkTimeoutInLoop timeout =>
    obtain hclose | hsame := run.checkTimeoutInLoop_cases now timeout
    · rw [runFunctor, hclose]
      apply run.handleClose_lives
    · rw [runFunctor, hsame]
      apply run.lives_refl
  | connectEstablished => apply run.connectEstablished_lives added
  | connectDestroyed => exact absurd rfl h

/-- A reservation in the thread of the loop waits in a caller when it is granted. -/
theorem reserve_lives {send : Send} {reservation : Reservation} {spurious : Bool}
    {verdict : Attempt} {connection : Connection}
    (h : run.connection.reserveWriteBytes send.data.length spurious reservation
      = (verdict, connection)) :
  run.Lives (run.reserve send connection verdict)
  := by
  obtain ⟨hstate, hclose⟩ := reserveWriteBytes_open h
  cases verdict with
  | granted =>
    apply lives_of_same (List.count_cons_of_ne (by simp)) hstate hclose
    exact id
  | _ => exact lives_of_same rfl hstate hclose id

/-- A caller that is not the close callback is left. -/
theorem popCaller_lives {caller : Caller} {callers : List Caller}
    (hcallers : run.callers = caller :: callers) (hne : caller ≠ .handleClose) :
  run.Lives { run with callers }
  := by
  refine lives_of_same ?_ rfl rfl id
  rw [hcallers, List.count_cons_of_ne hne]

theorem resume_lives (run : IoRun) (answer : Bool) (caller : Caller) :
  run.Lives (run.resume answer caller)
  := by
  cases caller with
  | handleEvent events => exact (run.resumeEvent_ends events answer).lives
  | _ => apply run.lives_refl

theorem state_connectDestroyed (connection : Connection) :
  connection.connectDestroyed.state = .disconnected
  := by
  rw [Connection.connectDestroyed]
  split
  · next h => exact h
  · rfl

/-- A connection that is destroyed was closed before, and does not call its close callback. -/
theorem connectDestroyed_closing (hleft : run.Left) (functors : List Functor) :
  { run with functors, connection := run.connection.connectDestroyed }.closing = run.closing
  := by
  rw [IoRun.closing, IoRun.closing, if_pos hleft, if_pos]
  right
  apply state_connectDestroyed _

/-- A step that does not destroy the connection, ask for this, or end a close callback. -/
def Ordinary (run : IoRun) : Label → Prop
  | .connectDestroyed => False
  | .queueInLoop functor => functor ≠ .connectDestroyed
  | .functor _ _ => run.functors.head? ≠ some .connectDestroyed
  | .resume _ => run.callers.head? ≠ some .handleClose
  | _ => True

theorem step_lives {label : Label} (h : run.Ordinary label) (hstep : run.Step label run') :
  run.Lives run'
  := by
  cases label with
  | event events reads => exact handleEvent_lives hstep.2.2
  | doPendingFunctors =>
    obtain ⟨-, hfunctors, rfl⟩ := hstep
    refine lives_of_same rfl rfl rfl ?_
    simp [hfunctors]
  | functor now added =>
    obtain ⟨-, functor, functors, hfunctors, rfl⟩ := hstep
    rw [Ordinary, hfunctors, List.head?_cons, ne_eq, Option.some.injEq] at h
    apply Lives.trans _ (runFunctor_lives _ now added h)
    refine lives_of_same rfl rfl rfl ?_
    rw [hfunctors]
    exact List.mem_cons_of_mem _
  | sendInLoop =>
    obtain ⟨send, -, rfl⟩ := hstep
    exact run.sendInLoop_lives send
  | writeToSocket outcome =>
    obtain ⟨events, hpc, rfl⟩ := hstep
    exact writeToSocket_lives hpc outcome
  | updateFd success =>
    obtain ⟨-, rfl⟩ := hstep
    exact run.updateFd_lives success
  | sent =>
    obtain ⟨-, send, callers, hcallers, rfl⟩ := hstep
    apply (popCaller_lives hcallers (by simp)).trans
    exact lives_of_same rfl rfl rfl id
  | enter =>
    obtain ⟨⟨-, hcallers⟩, rfl⟩ := hstep
    refine lives_of_same ?_ rfl rfl id
    rw [hcallers]
    rfl
  | resume answer =>
    obtain ⟨-, caller, callers, hcallers, -, rfl⟩ := hstep
    rw [Ordinary, hcallers, List.head?_cons, ne_eq, Option.some.injEq] at h
    apply (popCaller_lives hcallers h).trans (resume_lives _ answer caller)
  | send data =>
    obtain ⟨-, rfl⟩ := hstep
    rw [IoRun.send]
    split <;> exact lives_of_same rfl rfl rfl id
  | reserve spurious verdict =>
    obtain ⟨send, reservation, connection, -, hreserve, rfl⟩ := hstep
    exact reserve_lives hreserve
  | requestClose =>
    obtain ⟨-, rfl⟩ := hstep
    exact run.handleClose_lives
  | connectEstablished added =>
    obtain ⟨-, rfl⟩ := hstep
    exact run.connectEstablished_lives added
  | connectDestroyed => cases h
  | refreshPeerActivity now =>
    obtain ⟨-, rfl⟩ := hstep
    rw [Connection.refreshPeerActivity]
    split <;> exact lives_of_same rfl rfl rfl id
  | setReadBuffer =>
    obtain ⟨-, rfl⟩ := hstep
    exact lives_of_same rfl rfl rfl id
  | sendOther id data =>
    obtain ⟨-, rfl⟩ := hstep
    split <;> exact lives_of_same rfl rfl rfl fun h => h
  | reserveOther send spurious verdict =>
    obtain ⟨l, r, reservation, connection, -, hreserve, rfl⟩ := hstep
    obtain ⟨hstate, hclose⟩ := reserveWriteBytes_open hreserve
    cases verdict <;> exact lives_of_same rfl hstate hclose id
  | queueSend send =>
    obtain ⟨l, r, -, rfl⟩ := hstep
    apply lives_of_same <;> simp
  | queueInLoop functor =>
    obtain ⟨-, rfl⟩ := hstep
    have hother : Functor.connectDestroyed ≠ functor := Ne.symm h
    apply lives_of_same <;> simp [hother]

/-! ### In the close callback -/

/-- A step of a connection that has left the connected state leaves it there. -/
theorem left_of_step {label : Label} (h : run.Tidy) (hleft : run.Left)
    (hstep : run.Step label run') :
  run'.Left
  := left_of_phase ((step_advances h hstep).step.closed (phase_of_left hleft)).1

/-- The step does not start the close callback, or the connection has left the connected
state behind it. -/
def Closes (run run' : IoRun) : Prop :=
  run'.Left ∨ (.handleClose ∈ run'.callers → .handleClose ∈ run.callers)

theorem Lives.closes (h : run.Lives run') :
  run.Closes run'
  := by
  have hclosing := h.closing
  rw [IoRun.closing, IoRun.closing] at hclosing
  by_cases hleft : run'.Left
  · left
    exact hleft
  · right
    rw [if_neg hleft] at hclosing
    rw [← List.count_pos_iff, ← List.count_pos_iff]
    split at hclosing <;> omega

theorem closes_of_callers (h : run'.callers ⊆ run.callers) : run.Closes run' := by
  right
  intro hmem
  apply h hmem

/-- The close callback is started only by a step that closes the connection. -/
theorem step_closes {label : Label} (hstep : run.Step label run') :
  run.Closes run'
  := by
  cases label with
  | connectDestroyed =>
    obtain ⟨-, rfl⟩ := hstep
    apply closes_of_callers (List.Subset.refl _)
  | queueInLoop functor =>
    obtain ⟨-, rfl⟩ := hstep
    apply closes_of_callers (List.Subset.refl _)
  | functor now added =>
    by_cases hdestroys : run.functors.head? = some .connectDestroyed
    · obtain ⟨-, functor, functors, hfunctors, rfl⟩ := hstep
      rw [hfunctors, List.head?_cons, Option.some.injEq] at hdestroys
      subst hdestroys
      apply closes_of_callers (List.Subset.refl _)
    · apply Lives.closes
      apply step_lives _ hstep
      exact hdestroys
  | resume answer =>
    by_cases hends : run.callers.head? = some .handleClose
    · obtain ⟨-, caller, callers, hcallers, -, rfl⟩ := hstep
      rw [hcallers, List.head?_cons, Option.some.injEq] at hends
      subst hends
      apply closes_of_callers
      rw [hcallers]
      apply List.subset_cons_self _ _
    · apply Lives.closes
      apply step_lives _ hstep
      exact hends
  | _ =>
    apply Lives.closes
    apply step_lives _ hstep
    trivial

/-- When the close callback runs, the connection has left the connected state. -/
theorem left_of_closing (h : system.Reachable run) (hclosing : .handleClose ∈ run.callers) :
  run.Left
  := by
  suffices run.Tidy ∧ (.handleClose ∈ run.callers → run.Left) from this.2 hclosing
  apply h.invariant (I := fun run => run.Tidy ∧ (.handleClose ∈ run.callers → run.Left))
  · intro run hrun
    refine ⟨(inv_of_fresh hrun).1, ?_⟩
    obtain ⟨now, result, rfl⟩ := hrun
    rintro ⟨⟩
  · intro run label run' ⟨htidy, hleft⟩ _ hstep
    refine ⟨(step_advances htidy hstep).tidy, ?_⟩
    intro hmem
    rcases step_closes hstep with hclosed | hsame
    · exact hclosed
    · apply left_of_step htidy (hleft (hsame hmem)) hstep

end IoRun

end RoomServer
