import RoomServer.Net.Inbound

/-!
# What the loop watches for a connection

The descriptor of a connection is watched for one event at a time: when the poll has reported
one, it stays silent until the connection asks for events again.  The connection always asks
for what can be read, and for room in the socket as long as something waits to be written.
The loop comes to a report behind those of other connections, whose tasks may write to this one
before.

A connection that is connected never loses its events: when its loop is back at its wait, the
poll watches its descriptor, and for just the events the connection needs.  So what waits to be
written is never forgotten, and the poll never reports room to a connection with nothing to
write.
-/

namespace RoomServer

/-- A connection at work, the events the poll watches its descriptor for, if it does, and what it
has reported and the loop has not yet handled. -/
structure Polled where
  run : IoRun
  armed : Option UInt32
  reported : Option UInt32

namespace Polled

open Connection

variable {polled polled' : Polled} {run : IoRun} {armed reported : Option UInt32}

/-- What the poll watches once a connection was established. -/
def establish (polled : Polled) (added : Bool) : Option UInt32 :=
  if polled.run.connection.state ≠ .connecting ∨ polled.run.connection.registered then
    polled.armed
  else if added then
    some readEvents
  else
    polled.armed

/-- What the poll watches once a connection was destroyed. -/
def destroy (polled : Polled) : Option UInt32 :=
  if polled.run.connection.state = .disconnected then polled.armed else none

/-- What the poll watches behind a step: only `updateFd` arms a descriptor again. -/
def rearm (polled : Polled) : IoRun.Label → Option UInt32
  | .updateFd true => some polled.run.connection.needEvents
  | .connectEstablished added => polled.establish added
  | .connectDestroyed => polled.destroy
  | .functor _ added =>
    match polled.run.functors with
    | .connectEstablished :: _ => polled.establish added
    | .connectDestroyed :: _ => polled.destroy
    | _ => polled.armed
  | _ => polled.armed

/-- What the loop has still to handle behind a step. -/
def left (polled : Polled) : IoRun.Label → Option UInt32
  | .event _ _ => none
  | _ => polled.reported

/-- The poll reports events, or the connection or its loop takes a step. -/
inductive Label where
  | poll (events : UInt32)
  | run (label : IoRun.Label)

/-- The poll reports what it watches, and errors, and disarms the descriptor; it is called when
every report is handled.  The loop handles what was reported. -/
def Step (polled : Polled) (label : Label) (polled' : Polled) : Prop :=
  match label with
  | .poll events =>
    polled.run.AtLoop ∧ polled.run.functors = [] ∧ polled.reported = none
      ∧ ∃ watched, polled.armed = some watched
        ∧ events &&& (watched ||| epollErr ||| epollHup) = events
        ∧ polled' = { polled with armed := none, reported := some events }
  | .run label =>
    (∀ events reads, label = .event events reads → polled.reported = some events)
      ∧ polled.run.Step label polled'.run ∧ polled'.armed = polled.rearm label
      ∧ polled'.reported = polled.left label

/-- A connection that was just made is not watched. -/
def system : System Polled Label where
  Initial polled := polled.run.Fresh ∧ polled.armed = none ∧ polled.reported = none
  Step := Step

/-! ### The descriptor is armed -/

/-- The thread of the loop is to ask for events. -/
def Asking : IoRun.Pc → Prop
  | .writeToSocket _ | .updateFd => True
  | _ => False

/-- The thread of the loop handles an event, or is to ask for events. -/
def Busy (run : IoRun) : Prop := run.InEvent ∨ Asking run.pc

theorem Busy.inEvent (h : Busy run) (hpc : ¬Asking run.pc) : run.InEvent := h.resolve_right hpc

/-- A connection that is connected is watched for what it needs, unless it is busy or will be. -/
structure Inv (polled : Polled) : Prop where
  connecting : polled.run.connection.state = .connecting → polled.armed = none
    ∧ polled.reported = none ∧ polled.run.connection.writeBuffer.empty = true
  connected : polled.run.connection.state = .connected → Busy polled.run
    ∨ polled.reported ≠ none ∨ polled.armed = some polled.run.connection.needEvents
  updating : polled.run.pc = .updateFd → polled.run.connection.state = .connected

/-- A connection that has left the connected state needs no events. -/
theorem inv_of_left (hleft : run.Left) (hpc : run.pc ≠ .updateFd) :
  Inv ⟨run, armed, reported⟩
  where
  connecting := by
    intro hstate
    rcases hleft with hleft | hleft <;> rw [hleft] at hstate <;> cases hstate
  connected := by
    intro hstate
    rcases hleft with hleft | hleft <;> rw [hleft] at hstate <;> cases hstate
  updating h := absurd h hpc

theorem inv_of_handleClose (run : IoRun) (armed reported : Option UInt32) :
  Inv ⟨run.handleClose, armed, reported⟩
  := by
  apply inv_of_left run.left_handleClose
  obtain ⟨-, hclose⟩ | ⟨-, hclose⟩ := run.handleClose_cases <;> simp [hclose]

/-- A connection that is busy will ask for events. -/
theorem inv_of_busy (hstate : run.connection.state = .connected) (hbusy : Busy run) :
  Inv ⟨run, armed, reported⟩
  where
  connecting h := by rw [hstate] at h; cases h
  connected _ := .inl hbusy
  updating _ := hstate

/-- The connection waits for the same events, and is busy as before. -/
theorem Inv.keep (h : polled.Inv)
    (hstate : run.connection.state = polled.run.connection.state)
    (hbuffer : run.connection.writeBuffer = polled.run.connection.writeBuffer)
    (hbusy : Busy polled.run → Busy run)
    (hpc : run.pc = .updateFd → polled.run.pc = .updateFd) :
  Inv { polled with run }
  where
  connecting := by
    rw [hstate, hbuffer]
    apply h.connecting
  connected := by
    intro hconnected
    rw [hstate] at hconnected
    obtain hbusy' | hwaits := h.connected hconnected
    · exact .inl (hbusy hbusy')
    · right
      rw [needEvents, hbuffer]
      exact hwaits
  updating := by
    rw [hstate]
    intro hupdate
    apply h.updating (hpc hupdate)

/-- Nothing changes but what the events do not depend on. -/
theorem Inv.same (h : polled.Inv)
    (hstate : run.connection.state = polled.run.connection.state)
    (hbuffer : run.connection.writeBuffer = polled.run.connection.writeBuffer)
    (hcallers : run.callers = polled.run.callers) (hpc : run.pc = polled.run.pc) :
  Inv { polled with run }
  := by
  apply h.keep hstate hbuffer
  · rw [Busy, Busy, IoRun.InEvent, IoRun.InEvent, hcallers, hpc]
    exact id
  · rw [hpc]
    exact id

/-- The handling of an event or of a write ends with a connection that asks for events, is closed,
or was not connected. -/
theorem inv_of_ends (hidle : run.connection.state ≠ .connected → Inv ⟨run, armed, reported⟩)
    (hwriting : ∀ events, run.pc = .writeToSocket events → run.connection.state = .connected)
    {run' : IoRun} (h : run.Ends run') :
  Inv ⟨run', armed, reported⟩
  := by
  cases h with
  | stay hstate => apply hidle hstate
  | close => apply inv_of_handleClose
  | write events hstate => exact inv_of_busy hstate (.inr trivial)
  | update hbusy =>
    obtain hstate | ⟨events, hpc⟩ := hbusy
    · exact inv_of_busy hstate (.inr trivial)
    · exact inv_of_busy (hwriting events hpc) (.inr trivial)

/-- An event is handled to the end: the connection asks for events again, or is closed. -/
theorem inv_of_handleEvent (hstate : run.connection.state = .connected) {events : UInt32}
    {reads : List ReadOutcome} {run' : IoRun} (h : run.handleEvent events reads = some run') :
  Inv ⟨run', armed, reported⟩
  := by
  obtain ⟨-, hends⟩ | ⟨-, success, connection, hread, rfl⟩ := IoRun.handleEvent_cases h
  · apply inv_of_ends (absurd hstate) (fun _ _ => hstate) hends
  cases success with
  | false => apply inv_of_handleClose
  | true =>
    apply inv_of_busy
    · change connection.state = _
      rw [readFromSocket_eq hread]
      exact hstate
    · exact .inl ⟨events, List.mem_cons_self⟩

/-- A connection is established once: it is watched from then on. -/
theorem Inv.establish (h : polled.Inv) (hpc : polled.run.pc = .ready) (added : Bool) :
  Inv { polled with
    run := polled.run.connectEstablished added
    armed := polled.establish added }
  := by
  rw [IoRun.connectEstablished, Polled.establish]
  by_cases hstate : polled.run.connection.state ≠ .connecting ∨ polled.run.connection.registered
  · rw [if_pos hstate, if_pos hstate]
    exact h
  rw [if_neg hstate, if_neg hstate]
  cases added with
  | false => apply inv_of_handleClose
  | true =>
    have hconnecting : polled.run.connection.state = .connecting := by
      by_contra hne
      apply hstate (.inl hne)
    constructor
    · intro hfalse
      cases hfalse
    · intro _
      right
      right
      change some readEvents = some (needEvents (Connection.establish _))
      rw [needEvents, Connection.establish, if_pos (h.connecting hconnecting).2.2]
    · intro hupdate
      rw [if_pos rfl] at hupdate
      change polled.run.pc = .updateFd at hupdate
      rw [hpc] at hupdate
      cases hupdate

/-- A connection that was destroyed is not connected. -/
theorem inv_of_destroy (hpc : run.pc = .ready) (armed reported : Option UInt32) :
  Inv ⟨{ run with connection := run.connection.connectDestroyed }, armed, reported⟩
  := by
  apply inv_of_left
  · right
    change run.connection.connectDestroyed.state = _
    rw [Connection.connectDestroyed]
    split
    · assumption
    · rfl
  · change run.pc ≠ _
    rw [hpc]
    decide

/-- A functor is run. -/
theorem Inv.runFunctor (h : polled.Inv) (hloop : polled.run.AtLoop) (now : Int) (added : Bool)
    {functor : IoRun.Functor} {functors : List IoRun.Functor}
    (hfunctors : polled.run.functors = functor :: functors) :
  Inv { polled with
    run := IoRun.runFunctor { polled.run with functors } now added functor
    armed := polled.rearm (.functor now added) }
  := by
  obtain ⟨hpc, hcallers⟩ := hloop
  have hsame : Inv { polled with run := { polled.run with functors } } := h.same rfl rfl rfl rfl
  rw [rearm, hfunctors]
  cases functor with
  | sendInLoop s =>
    refine h.keep rfl rfl ?_ ?_
    · intro hbusy
      exact .inl (hbusy.inEvent (by rw [hpc]; exact id))
    · intro hupdate
      cases hupdate
  | handleClose => apply inv_of_handleClose
  | checkTimeoutInLoop timeout =>
    obtain hclose | heq := { polled.run with functors }.checkTimeoutInLoop_cases now timeout
    · rw [IoRun.runFunctor, hclose]
      apply inv_of_handleClose
    · rw [IoRun.runFunctor, heq]
      exact hsame
  | connectEstablished => exact hsame.establish hpc added
  | connectDestroyed => exact @inv_of_destroy { polled.run with functors } hpc _ _

/-- A send in the thread of the loop fills the write buffer and goes on to write. -/
theorem Inv.sendInLoop (h : polled.Inv) {s : Send} (hpc : polled.run.pc = .sendInLoop s) :
  Inv { polled with run := polled.run.sendInLoop s }
  := by
  rw [IoRun.sendInLoop]
  by_cases hstate : polled.run.connection.state ≠ .connected ∨ s.data = []
  · rw [if_pos hstate]
    apply h.keep
    · apply state_releaseWriteBytes
    · change (Connection.releaseWriteBytes _ _).writeBuffer = _
      rw [IoRun.releaseWriteBytes_eq]
    · intro hbusy
      exact .inl (hbusy.inEvent (by rw [hpc]; exact id))
    · intro hupdate
      cases hupdate
  · rw [if_neg hstate]
    apply inv_of_busy
    · by_contra hne
      apply hstate (.inl hne)
    · exact .inr trivial

/-- A turn of a write leaves the connection writing, or about to ask for events, or closed. -/
theorem inv_of_writeToSocket (hstate : run.connection.state = .connected)
    {events : Option UInt32} (hpc : run.pc = .writeToSocket events) (outcome : WriteOutcome)
    (armed reported : Option UInt32) :
  Inv ⟨run.writeToSocket events outcome, armed, reported⟩
  := by
  obtain hends | hsame | ⟨k, -, heq⟩ := IoRun.writeToSocket_cases hpc outcome
  · apply inv_of_ends (absurd hstate) (fun _ _ => hstate) hends
  · rw [hsame]
    exact inv_of_busy hstate (.inr (by rw [hpc]; trivial))
  · rw [heq]
    apply inv_of_busy
    · exact (state_releaseWriteBytes _ _).trans hstate
    · right
      rw [hpc]
      trivial

/-- The connection asks for what it needs. -/
theorem Inv.updateFd (h : polled.Inv) (hpc : polled.run.pc = .updateFd) (success : Bool) :
  Inv { polled with
    run := polled.run.updateFd success
    armed := polled.rearm (.updateFd success) }
  := by
  cases success with
  | false => apply inv_of_handleClose
  | true =>
    have hstate := h.updating hpc
    constructor
    · intro hconnecting
      change polled.run.connection.state = _ at hconnecting
      rw [hstate] at hconnecting
      cases hconnecting
    · intro _
      exact .inr (.inr rfl)
    · intro hupdate
      cases hupdate

/-- A caller goes on behind a callback. -/
theorem Inv.resume (h : polled.Inv) (hpc : polled.run.pc = .ready) {caller : IoRun.Caller}
    {callers : List IoRun.Caller} (hcallers : polled.run.callers = caller :: callers)
    (answer : Bool) :
  Inv { polled with run := IoRun.resume { polled.run with callers } answer caller }
  := by
  have hother : (∀ events, caller ≠ .handleEvent events) →
      Inv { polled with run := { polled.run with callers } } := by
    intro hne
    refine h.keep rfl rfl ?_ ?_
    · intro hbusy
      obtain ⟨events, hevent⟩ := hbusy.inEvent (by rw [hpc]; exact id)
      rw [hcallers] at hevent
      obtain heq | hevent := List.mem_cons.mp hevent
      · exact absurd heq.symm (hne events)
      · exact .inl ⟨events, hevent⟩
    · exact id
  cases caller with
  | handleEvent events =>
    have hends := { polled.run with callers }.resumeEvent_ends events answer
    apply inv_of_ends _ _ hends
    · intro hstate
      use h.connecting, fun hconnected => absurd hconnected hstate
      intro hupdate
      change polled.run.pc = _ at hupdate
      rw [hpc] at hupdate
      cases hupdate
    · intro events' hwriting
      change polled.run.pc = _ at hwriting
      rw [hpc] at hwriting
      cases hwriting
  | send s => exact hother fun _ => by simp
  | handleClose => exact hother fun _ => by simp
  | task => exact hother fun _ => by simp

/-- An event was reported to a connection that was watched, so that it is not connecting. -/
theorem Inv.handleEvent (h : polled.Inv) (hpc : polled.run.pc = .ready) {events : UInt32}
    (hreported : polled.reported = some events) {reads : List ReadOutcome} {run' : IoRun}
    (hevent : polled.run.handleEvent events reads = some run')
    (armed reported : Option UInt32) :
  Inv ⟨run', armed, reported⟩
  := by
  cases hstate : polled.run.connection.state with
  | connecting =>
    rw [(h.connecting hstate).2.1] at hreported
    cases hreported
  | connected => apply inv_of_handleEvent hstate hevent
  | disconnecting | disconnected =>
    rw [IoRun.handleEvent, if_pos (by simp [hstate])] at hevent
    cases hevent
    apply inv_of_left (by simp [IoRun.Left, hstate])
    rw [hpc]
    decide

/-- A task of the loop that is not of the connection begins. -/
theorem Inv.enter (h : polled.Inv) (hcallers : polled.run.callers = []) :
  Inv { polled with run := { polled.run with callers := [.task] } }
  := by
  refine h.keep rfl rfl ?_ id
  rintro (⟨events, hevent⟩ | hbusy)
  · rw [hcallers] at hevent
    cases hevent
  · exact .inr hbusy

theorem Inv.send (h : polled.Inv) (hpc : polled.run.pc = .ready) (data : Bytes) :
  Inv { polled with run := polled.run.send data }
  := by
  rw [IoRun.send]
  split
  · exact h.same rfl rfl rfl rfl
  · refine h.keep rfl rfl ?_ (by rintro ⟨⟩)
    intro hbusy
    exact .inl (hbusy.inEvent (by rw [hpc]; exact id))

/-- A reservation is none of the business of the poll. -/
theorem Inv.reserve (h : polled.Inv) {s : Send} {reservation : Reservation} {spurious : Bool}
    {verdict : Attempt} {connection : Connection} (hpc : polled.run.pc = .reserve s reservation)
    (hreserve : polled.run.connection.reserveWriteBytes s.data.length spurious reservation
      = (verdict, connection)) :
  Inv { polled with run := polled.run.reserve s connection verdict }
  := by
  have heq := IoRun.reserveWriteBytes_eq hreserve
  have hstate := congrArg Connection.state heq
  have hbuffer := congrArg Connection.writeBuffer heq
  have hevent : Busy polled.run → polled.run.InEvent := by
    intro hbusy
    exact hbusy.inEvent (by rw [hpc]; exact id)
  cases verdict with
  | retry cur => exact h.keep hstate hbuffer (fun hbusy => .inl (hevent hbusy)) (by rintro ⟨⟩)
  | refused => exact h.keep hstate hbuffer (fun hbusy => .inl (hevent hbusy)) (by rintro ⟨⟩)
  | granted =>
    refine h.keep hstate hbuffer ?_ (by rintro ⟨⟩)
    intro hbusy
    obtain ⟨events, hmem⟩ := hevent hbusy
    exact .inl ⟨events, List.mem_cons_of_mem _ hmem⟩

/-- The poll reports events to a connection that is watched. -/
theorem Inv.poll (h : polled.Inv) (hpc : polled.run.pc = .ready) {watched : UInt32}
    (harmed : polled.armed = some watched) (events : UInt32) :
  Inv { polled with armed := none, reported := some events }
  := by
  constructor
  · intro hstate
    rw [(h.connecting hstate).1] at harmed
    cases harmed
  · intro _
    exact .inr (.inl nofun)
  · intro hupdate
    rw [show polled.run.pc = .updateFd from hupdate] at hpc
    cases hpc

theorem run_inv {label : IoRun.Label} (h : polled.Inv) (htidy : polled.run.Tidy)
    (hstep : system.Step polled (.run label) polled') :
  polled'.Inv
  := by
  obtain ⟨run', armed', reported'⟩ := polled'
  obtain ⟨hreports, hstep, rfl, rfl⟩ := hstep
  cases label with
  | event events reads =>
    obtain ⟨⟨hpc, -⟩, -, hevent⟩ := hstep
    apply h.handleEvent hpc (hreports events reads rfl) hevent
  | doPendingFunctors =>
    obtain ⟨-, -, rfl⟩ := hstep
    exact h.same rfl rfl rfl rfl
  | functor now added =>
    obtain ⟨hloop, functor, functors, hfunctors, rfl⟩ := hstep
    apply h.runFunctor hloop now added hfunctors
  | sendInLoop =>
    obtain ⟨s, hpc, rfl⟩ := hstep
    apply h.sendInLoop hpc
  | writeToSocket outcome =>
    obtain ⟨events, hpc, rfl⟩ := hstep
    apply inv_of_writeToSocket (htidy.writing events hpc) hpc
  | updateFd success =>
    obtain ⟨hpc, rfl⟩ := hstep
    apply h.updateFd hpc
  | sent =>
    obtain ⟨hpc, s, callers, hcallers, rfl⟩ := hstep
    have hresume := h.resume hpc hcallers true
    exact hresume.same rfl rfl rfl rfl
  | enter =>
    obtain ⟨⟨-, hcallers⟩, rfl⟩ := hstep
    apply h.enter hcallers
  | resume answer =>
    obtain ⟨hpc, caller, callers, hcallers, -, rfl⟩ := hstep
    apply h.resume hpc hcallers
  | send data =>
    obtain ⟨⟨hpc, -⟩, rfl⟩ := hstep
    apply h.send hpc
  | reserve spurious verdict =>
    obtain ⟨s, reservation, connection, hpc, hreserve, rfl⟩ := hstep
    apply h.reserve hpc hreserve
  | requestClose =>
    obtain ⟨-, rfl⟩ := hstep
    apply inv_of_handleClose
  | connectEstablished added =>
    obtain ⟨⟨hpc, -⟩, rfl⟩ := hstep
    apply h.establish hpc
  | connectDestroyed =>
    obtain ⟨⟨hpc, -⟩, rfl⟩ := hstep
    apply inv_of_destroy hpc
  | refreshPeerActivity now =>
    obtain ⟨-, rfl⟩ := hstep
    rw [Connection.refreshPeerActivity]
    split <;> exact h.same rfl rfl rfl rfl
  | setReadBuffer buffer =>
    obtain ⟨-, rfl⟩ := hstep
    exact h.same rfl rfl rfl rfl
  | sendOther id data =>
    obtain ⟨-, rfl⟩ := hstep
    split <;> exact h.same rfl rfl rfl rfl
  | reserveOther s spurious verdict =>
    obtain ⟨l, r, reservation, connection, hcalls, hreserve, rfl⟩ := hstep
    have heq := IoRun.reserveWriteBytes_eq hreserve
    have hstate := congrArg Connection.state heq
    have hbuffer := congrArg Connection.writeBuffer heq
    cases verdict <;> exact h.same hstate hbuffer rfl rfl
  | queueSend s =>
    obtain ⟨l, r, hcalls, rfl⟩ := hstep
    exact h.same rfl rfl rfl rfl
  | queueInLoop functor =>
    obtain ⟨-, rfl⟩ := hstep
    exact h.same rfl rfl rfl rfl

theorem reachable_run (h : system.Reachable polled) : IoRun.system.Reachable polled.run := by
  apply System.ReachableBy.map Polled.run _ _ h
  · intro polled hinit
    exact .initial hinit.1
  · intro polled label polled' hstep
    cases label with
    | poll events =>
      obtain ⟨-, -, -, watched, -, -, rfl⟩ := hstep
      exact .refl
    | run label => exact .step .refl hstep.2.1

theorem inv_of_reachable (h : system.Reachable polled) : polled.Inv := by
  induction h with
  | initial h =>
    obtain ⟨⟨now, result, hrun⟩, harmed, hreported⟩ := h
    constructor
    · intro _
      rw [hrun]
      exact ⟨harmed, hreported, rfl⟩
    · rw [hrun]
      rintro ⟨⟩
    · rw [hrun]
      rintro ⟨⟩
  | @step _ _ label hreachable _ hstep hinv =>
    cases label with
    | poll events =>
      obtain ⟨⟨hpc, -⟩, -, -, watched, harmed, -, rfl⟩ := hstep
      apply hinv.poll hpc harmed
    | run label =>
      apply run_inv hinv (IoRun.refines_of_reachable (reachable_run hreachable)).1 hstep

/-! ### No event is lost -/

/-- A connection whose loop is at its wait is watched for just the events it needs. -/
theorem armed_of_reachable (h : system.Reachable polled) (hloop : polled.run.AtLoop)
    (hreported : polled.reported = none) (hstate : polled.run.connection.state = .connected) :
  polled.armed = some polled.run.connection.needEvents
  := by
  obtain hbusy | hreports | harmed := (inv_of_reachable h).connected hstate
  · obtain ⟨events, hevent⟩ := hbusy.inEvent (by rw [hloop.1]; exact id)
    rw [hloop.2] at hevent
    cases hevent
  · exact absurd hreported hreports
  · exact harmed

/-- The connection is watched for just the events it needs, and room in the socket is reported
to it only when something waits to be written. -/
structure Watches (polled : Polled) : Prop where
  armed : polled.armed = some polled.run.connection.needEvents
  wanted : ∀ events polled', system.Step polled (.poll events) polled' →
    events &&& epollOut ≠ 0 → polled.run.connection.writeBuffer.empty = false

theorem watches_of_reachable (h : system.Reachable polled) (hloop : polled.run.AtLoop)
    (hreported : polled.reported = none) (hstate : polled.run.connection.state = .connected) :
  polled.Watches
  := by
  have harmed := armed_of_reachable h hloop hreported hstate
  constructor
  · exact harmed
  · rintro events polled' ⟨-, -, -, watched, hwatched, hevents, -⟩ hout
    by_contra hempty
    apply hout
    rw [harmed, Option.some.injEq] at hwatched
    rw [← hevents, ← hwatched, needEvents, if_pos (Bool.not_eq_false _ ▸ hempty),
      UInt32.and_assoc]
    have hnone : (readEvents ||| epollErr ||| epollHup) &&& epollOut = 0 := by decide
    rw [hnone, UInt32.and_zero]

/-! ### What waits is written -/

/-- The run in which the socket has taken all that waits to be written. -/
def emptied (run : IoRun) : IoRun :=
  { run with
    connection := { run.connection with
      writeBuffer := run.connection.writeBuffer.retrieveAll }.releaseWriteBytes
        run.connection.writeBuffer.readableBytes
    socket := run.socket ++ run.connection.writeBuffer.content }

theorem emptied_connection (run : IoRun) :
  (emptied run).connection = { run.connection with
    writeBuffer := run.connection.writeBuffer.retrieveAll
    pendingWriteBytes := (emptied run).connection.pendingWriteBytes
    overReleased := (emptied run).connection.overReleased }
  := by
  apply IoRun.releaseWriteBytes_eq

theorem readableBytes_pos {buffer : Buffer} (h : buffer.empty = false) :
  0 < buffer.readableBytes
  := by
  have hle := buffer.readPos_le
  rw [Buffer.empty, beq_eq_false_iff_ne] at h
  rw [Buffer.readableBytes]
  omega

/-- A socket with enough room takes all in one turn. -/
theorem writeToSocket_all {events : Option UInt32}
    (h : run.connection.writeBuffer.empty = false) :
  run.writeToSocket events (.written run.connection.writeBuffer.readableBytes) = emptied run
  := by
  have hretrieve : run.connection.writeBuffer.retrieve run.connection.writeBuffer.readableBytes
      = run.connection.writeBuffer.retrieveAll := dif_neg (Nat.lt_irrefl _)
  have htake : run.connection.writeBuffer.peek.take run.connection.writeBuffer.readableBytes
      = run.connection.writeBuffer.content := by
    rw [Buffer.take_peek (Nat.le_refl _), ← Buffer.length_content, List.take_length]
  have hwrite : ∀ n, 0 < n → n = run.connection.writeBuffer.readableBytes →
      run.connection.writeToSocket (.written n)
        = (none, run.connection.writeBuffer.content, (emptied run).connection) := by
    intro n hpos hn
    cases n with
    | zero => cases hpos
    | succ n =>
      rw [Connection.writeToSocket.eq_def, if_neg (by rw [h]; decide), ← hn]
      change (none, run.connection.writeBuffer.peek.take (min (n + 1) (n + 1)),
        Connection.releaseWriteBytes { run.connection with
          writeBuffer := run.connection.writeBuffer.retrieve (min (n + 1) (n + 1)) }
          (min (n + 1) (n + 1))) = _
      rw [Nat.min_self, hn, hretrieve, htake]
      rfl
  rw [IoRun.writeToSocket, hwrite _ (readableBytes_pos h) rfl]
  rfl

/-- Behind its last turn the write ends well, and the connection is closed only when its peer
has finished. -/
theorem writeToSocket_emptied (run : IoRun) {events : UInt32}
    (h : events &&& (epollErr ||| epollHup) = 0) :
  (emptied run).writeToSocket (some events) .wouldBlock
    = if run.connection.peerEof then (emptied run).handleClose
      else { emptied run with pc := .updateFd }
  := by
  have hempty : (emptied run).connection.writeBuffer.empty = true := by
    rw [emptied_connection]
    rfl
  have heof : (emptied run).connection.peerEof = run.connection.peerEof := by
    rw [emptied_connection]
  rw [IoRun.writeToSocket, Connection.writeToSocket, if_pos hempty]
  change IoRun.finishEvent (emptied run) events true = _
  rw [IoRun.finishEvent, h, heof, hempty, Bool.and_true]
  rfl

/-- A write for an event ends with everything written, and the connection asks for what can be
read, or is closed. -/
theorem leads_of_writing {events : UInt32} (hpc : run.pc = .writeToSocket (some events))
    (hcallers : run.callers = []) (hevents : events &&& (epollErr ||| epollHup) = 0)
    (hstate : run.connection.state = .connected)
    (hwaiting : run.connection.writeBuffer.empty = false) :
  ∃ polled', system.Leads ⟨run, armed, reported⟩ polled'
    ∧ polled'.run.socket = run.socket ++ run.connection.writeBuffer.content
    ∧ if run.connection.peerEof then polled'.run.Left
      else polled'.run.AtLoop ∧ polled'.run.connection.state = .connected
        ∧ polled'.armed = some readEvents ∧ polled'.reported = reported
  := by
  have hall : run.Step (.writeToSocket (.written run.connection.writeBuffer.readableBytes))
      (emptied run) := ⟨some events, hpc, (writeToSocket_all hwaiting).symm⟩
  have htaken : system.Leads ⟨run, armed, reported⟩ ⟨emptied run, armed, reported⟩ :=
    System.Leads.refl.step (ℓ := .run (.writeToSocket _)) ⟨by rintro _ _ ⟨⟩, hall, rfl, rfl⟩
  have hend := writeToSocket_emptied run hevents
  cases heof : run.connection.peerEof with
  | true =>
    rw [heof, if_pos rfl] at hend
    use ⟨(emptied run).handleClose, armed, reported⟩
    use htaken.step (ℓ := .run (.writeToSocket .wouldBlock))
      ⟨by rintro _ _ ⟨⟩, ⟨some events, hpc, hend.symm⟩, rfl, rfl⟩
    refine ⟨?_, IoRun.left_handleClose _⟩
    change (emptied run).handleClose.socket = _
    rw [IoRun.handleClose]
    split <;> rfl
  | false =>
    rw [heof, if_neg (by decide)] at hend
    have hasking : system.Leads ⟨run, armed, reported⟩
        ⟨{ emptied run with pc := .updateFd }, armed, reported⟩ :=
      htaken.step (ℓ := .run (.writeToSocket .wouldBlock))
        ⟨by rintro _ _ ⟨⟩, ⟨some events, hpc, hend.symm⟩, rfl, rfl⟩
    use ⟨IoRun.updateFd { emptied run with pc := .updateFd } true,
      some (emptied run).connection.needEvents, reported⟩
    use hasking.step (ℓ := .run (.updateFd true)) ⟨by rintro _ _ ⟨⟩, ⟨rfl, rfl⟩, rfl, rfl⟩
    refine ⟨rfl, ⟨rfl, hcallers⟩, ?_, ?_, rfl⟩
    · change (emptied run).connection.state = _
      rw [emptied_connection]
      exact hstate
    · rw [emptied_connection]
      rfl

/-- What a connection at its wait has to write is written as soon as the socket has room for it:
the poll reports the room, the socket takes everything, and the connection is back at its wait,
or closed if its peer has finished. -/
theorem drains_of_reachable (h : system.Reachable polled) (hloop : polled.run.AtLoop)
    (hfunctors : polled.run.functors = []) (hreported : polled.reported = none)
    (hstate : polled.run.connection.state = .connected)
    (hwaiting : polled.run.connection.writeBuffer.empty = false) :
  ∃ polled', system.Leads polled polled'
    ∧ polled'.run.socket = polled.run.socket ++ polled.run.connection.writeBuffer.content
    ∧ if polled.run.connection.peerEof then polled'.run.Left
      else polled'.run.AtLoop ∧ polled'.run.connection.state = .connected
        ∧ polled'.armed = some readEvents ∧ polled'.reported = none
  := by
  have harmed := armed_of_reachable h hloop hreported hstate
  rw [needEvents, hwaiting] at harmed
  have hevent : polled.run.handleEvent epollOut []
      = some { polled.run with pc := .writeToSocket (some epollOut) } := by
    rw [IoRun.handleEvent, if_neg (not_not.mpr hstate)]
    rfl
  have hpolled : system.Step polled (.poll epollOut)
      { polled with armed := none, reported := some epollOut } :=
    ⟨hloop, hfunctors, hreported, readEvents ||| epollOut, harmed, by decide, rfl⟩
  have hhandled : system.Step { polled with armed := none, reported := some epollOut }
      (.run (.event epollOut []))
      ⟨{ polled.run with pc := .writeToSocket (some epollOut) }, none, none⟩ :=
    ⟨by rintro _ _ ⟨⟩; rfl, ⟨hloop, hfunctors, hevent⟩, rfl, rfl⟩
  have hevents : epollOut &&& (epollErr ||| epollHup) = 0 := by decide
  obtain ⟨polled', hleads, hwritten⟩ := @leads_of_writing
    { polled.run with pc := .writeToSocket (some epollOut) } none none epollOut rfl hloop.2
    hevents hstate hwaiting
  exact ⟨polled', ((System.Leads.refl.step hpolled).step hhandled).trans hleads, hwritten⟩

/-- Two of six bytes wait to be written. -/
def waiting : Polled where
  run := (IoRun.written.writeToSocket none .wouldBlock).updateFd true
  armed := some (readEvents ||| epollOut)
  reported := none

theorem reachable_step (h : system.Reachable polled) (label : IoRun.Label)
    (hreports : ∀ events reads, label = .event events reads → polled.reported = some events)
    (hstep : polled.run.Step label run) :
  system.Reachable ⟨run, polled.rearm label, polled.left label⟩
  := by
  have hrun : system.Step polled (.run label) ⟨run, polled.rearm label, polled.left label⟩ :=
    ⟨hreports, hstep, rfl, rfl⟩
  apply h.step trivial hrun

theorem reachable_updateFd (h : system.Reachable ⟨run, armed, reported⟩)
    (hpc : run.pc = .updateFd) :
  system.Reachable ⟨run.updateFd true, some run.connection.needEvents, reported⟩
  := by
  apply reachable_step h (.updateFd true) nofun ⟨hpc, rfl⟩

theorem waiting_reachable : system.Reachable waiting := by
  have hfresh : system.Reachable ⟨IoRun.fresh, none, none⟩ :=
    .initial ⟨⟨0, false, rfl⟩, rfl, rfl⟩
  have hqueue := reachable_step hfresh (.queueInLoop .connectEstablished) nofun ⟨rfl, rfl⟩
  have hswap := reachable_step hqueue .doPendingFunctors nofun ⟨⟨rfl, rfl⟩, rfl, rfl⟩
  have hconnected : system.Reachable ⟨IoRun.connected, _, _⟩ :=
    reachable_step hswap (.functor 0 true) nofun ⟨⟨rfl, rfl⟩, _, _, rfl, rfl⟩
  have hcall := reachable_step hconnected (.sendOther 1 IoRun.frame.data) nofun
    ⟨by rintro call ⟨⟩, rfl⟩
  have hload := reachable_step hcall (.reserveOther IoRun.frame false (.retry 0)) nofun
    ⟨[], [], .load, _, rfl, rfl, rfl⟩
  have hexchange := reachable_step hload (.reserveOther IoRun.frame false .granted) nofun
    ⟨[], [], .exchange 0, _, rfl, rfl, rfl⟩
  have hsending : system.Reachable ⟨IoRun.sending, _, _⟩ :=
    reachable_step hexchange (.queueSend IoRun.frame) nofun ⟨[], [], rfl, rfl⟩
  have hswap' := reachable_step hsending .doPendingFunctors nofun ⟨⟨rfl, rfl⟩, rfl, rfl⟩
  have hfunctor := reachable_step hswap' (.functor 0 true) nofun ⟨⟨rfl, rfl⟩, _, _, rfl, rfl⟩
  have hsend := reachable_step hfunctor .sendInLoop nofun ⟨IoRun.frame, rfl, rfl⟩
  have hwritten : system.Reachable ⟨IoRun.written, _, _⟩ :=
    reachable_step hsend (.writeToSocket (.written 4)) nofun ⟨none, rfl, rfl⟩
  have hblocked := reachable_step hwritten (.writeToSocket .wouldBlock) nofun
    ⟨none, by decide +kernel, rfl⟩
  have hasked := reachable_updateFd hblocked (by decide +kernel)
  dsimp only at hasked
  rwa [show some (IoRun.written.writeToSocket none .wouldBlock).connection.needEvents
    = waiting.armed by decide +kernel] at hasked

theorem waiting_watches : waiting.Watches :=
  watches_of_reachable waiting_reachable ⟨by decide +kernel, by decide +kernel⟩ rfl
    (by decide +kernel)

theorem waiting_drains :
  waiting.run.connection.writeBuffer.content = [0, 1]
    ∧ ∃ polled', system.Leads waiting polled'
      ∧ polled'.run.socket = waiting.run.socket ++ waiting.run.connection.writeBuffer.content
      ∧ if waiting.run.connection.peerEof then polled'.run.Left
        else polled'.run.AtLoop ∧ polled'.run.connection.state = .connected
          ∧ polled'.armed = some readEvents ∧ polled'.reported = none
  := by
  use by decide +kernel
  apply drains_of_reachable waiting_reachable ⟨by decide +kernel, by decide +kernel⟩
    (by decide +kernel) rfl (by decide +kernel) (by decide +kernel)

end Polled

end RoomServer
