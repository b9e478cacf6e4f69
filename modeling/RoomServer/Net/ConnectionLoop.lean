import RoomServer.Net.Connection

/-!
# A connection on its loop

The loop of a connection handles its events and runs its functors, one after the other.  The
callbacks of the connection, and tasks of the loop that are not the connection's own, may call
the connection again; their calls are run at once.  Calls in other threads proceed in between:
they reserve room step by step and queue a functor.

A step is what happens between two accesses to what the threads share: the write debt and the
queue of functors.  What the system calls return, and when, is arbitrary.
-/

namespace RoomServer

/-- The thread of the loop of a connection, or another one. -/
inductive Thread where
  | loop
  | other (id : Nat)
  deriving DecidableEq

/-- A call of `send`. -/
abbrev Send : Type := Message Thread UInt8

namespace IoRun

open Connection (Reservation Attempt)

/-- A task of a connection in the queue of its loop. -/
inductive Functor where
  | sendInLoop (send : Send)
  | handleClose
  | checkTimeoutInLoop (timeout : Int)
  | connectEstablished
  | connectDestroyed
  deriving DecidableEq

/-- The call of `send` a functor comes from. -/
def Functor.send : Functor → Option Send
  | .sendInLoop send => some send
  | _ => none

/-- What waits in the thread of the loop for a call to return: `handleEvent` for the message
callback, `handleClose` for the close callback, `send` for `sendInLoop`, or a task of the loop
that is not of the connection for whatever it calls. -/
inductive Caller where
  | handleEvent (events : UInt32)
  | handleClose
  | send (send : Send)
  | task
  deriving DecidableEq

/-- Code of others runs, which may call the connection. -/
def Caller.IsCallback : Caller → Prop
  | .send _ => False
  | _ => True

/-- Where the thread of the loop is: at the return to the innermost caller, in the reservation
of a `send`, before a `sendInLoop`, in the loop of `writeToSocket` (which `handleEvent` calls
with its events, or `sendInLoop`), or before `updateFd`. -/
inductive Pc where
  | ready
  | reserve (send : Send) (reservation : Reservation)
  | sendInLoop (send : Send)
  | writeToSocket (events : Option UInt32)
  | updateFd
  deriving DecidableEq

/-- How far a `send` in another thread is: it reserves room, or is to queue its functor. -/
inductive Progress where
  | reserving (reservation : Reservation)
  | granted
  deriving DecidableEq

end IoRun

open IoRun in
/-- A connection at work, and a record of the bytes the socket took, of the sends whose
`sendInLoop` ran while the connection was connected, of the number of sends that were called
and of what they returned. -/
structure IoRun where
  connection : Connection
  /-- The events the loop was last asked for. -/
  interest : UInt32
  pc : Pc
  callers : List Caller
  /-- What `doPendingFunctors` has taken from the queue and not yet run. -/
  functors : List Functor
  pendingFunctors : List Functor
  calls : List (Send × Progress)
  /-- What the last `send` in the thread of the loop returned. -/
  result : Bool
  socket : Bytes
  ran : List Send
  made : Nat
  returned : List (Send × Bool)

namespace IoRun

open Connection

/-! ### The functions of the loop -/

def handleClose (run : IoRun) : IoRun :=
  match run.connection.handleClose with
  | (true, connection) =>
    { run with connection, pc := .ready, callers := .handleClose :: run.callers }
  | (false, connection) => { run with connection, pc := .ready }

def connectEstablished (run : IoRun) (added : Bool) : IoRun :=
  if run.connection.state ≠ .connecting ∨ run.connection.registered then
    run
  else if added then
    { run with connection := run.connection.establish, interest := readEvents }
  else
    run.handleClose

def checkTimeoutInLoop (run : IoRun) (now timeout : Int) : IoRun :=
  if run.connection.timedOut now timeout then run.handleClose else run

/-- The end of `handleEvent`, from the result of the write on. -/
def finishEvent (run : IoRun) (events : UInt32) (success : Bool) : IoRun :=
  if !success || events &&& (epollErr ||| epollHup) != 0 then
    run.handleClose
  else if run.connection.peerEof && run.connection.writeBuffer.empty then
    run.handleClose
  else
    { run with pc := .updateFd }

/-- `handleEvent` behind its read. -/
def writeEvent (run : IoRun) (events : UInt32) : IoRun :=
  if events &&& epollOut != 0 then
    { run with pc := .writeToSocket (some events) }
  else
    run.finishEvent events true

/-- `handleEvent` up to the message callback. -/
def handleEvent (run : IoRun) (events : UInt32) (reads : List ReadOutcome) : Option IoRun :=
  if run.connection.state ≠ .connected then
    some run
  else if events &&& (epollIn ||| epollRdhup) != 0 then
    match run.connection.readFromSocket reads with
    | none => none
    | some (false, connection) => some { run with connection }.handleClose
    | some (true, connection) =>
      some { run with connection, callers := .handleEvent events :: run.callers }
  else
    some (run.writeEvent events)

/-- `handleEvent` behind the message callback. -/
def resumeEvent (run : IoRun) (events : UInt32) (answer : Bool) : IoRun :=
  if !answer then
    run.handleClose
  else if run.connection.state ≠ .connected then
    run
  else
    run.writeEvent events

/-- `sendInLoop` up to its write. -/
def sendInLoop (run : IoRun) (send : Send) : IoRun :=
  if run.connection.state ≠ .connected ∨ send.data = [] then
    { run with
      connection := run.connection.releaseWriteBytes send.data.length
      pc := .ready }
  else
    { run with
      connection := { run.connection with
        writeBuffer := run.connection.writeBuffer.append send.data }
      pc := .writeToSocket none
      ran := run.ran ++ [send] }

/-- What the caller of `writeToSocket`, `handleEvent` with its events or `sendInLoop`, does with
its result. -/
def finishWrite (run : IoRun) (success : Bool) : Option UInt32 → IoRun
  | some events => run.finishEvent events success
  | none => if !success then run.handleClose else { run with pc := .updateFd }

/-- One turn of the loop of `writeToSocket`. -/
def writeToSocket (run : IoRun) (events : Option UInt32) (outcome : WriteOutcome) : IoRun :=
  match run.connection.writeToSocket outcome with
  | (none, data, connection) => { run with connection, socket := run.socket ++ data }
  | (some success, _, connection) => { run with connection }.finishWrite success events

def updateFd (run : IoRun) (success : Bool) : IoRun :=
  if success then
    { run with interest := run.connection.needEvents, pc := .ready }
  else
    run.handleClose

def runFunctor (run : IoRun) (now : Int) (added : Bool) : Functor → IoRun
  | .sendInLoop send => { run with pc := .sendInLoop send }
  | .handleClose => run.handleClose
  | .checkTimeoutInLoop timeout => run.checkTimeoutInLoop now timeout
  | .connectEstablished => run.connectEstablished added
  | .connectDestroyed => { run with connection := run.connection.connectDestroyed }

/-- A caller goes on with what a callback has answered. -/
def resume (run : IoRun) (answer : Bool) : Caller → IoRun
  | .handleEvent events => run.resumeEvent events answer
  | _ => run

/-- `send` is called in the thread of the loop. -/
def send (run : IoRun) (data : Bytes) : IoRun :=
  let send : Send := ⟨.loop, run.made, data⟩
  if data = [] then
    { run with
      made := run.made + 1, returned := run.returned ++ [(send, false)], result := false }
  else
    { run with made := run.made + 1, pc := .reserve send .load }

/-- A step of the reservation of a `send` in the thread of the loop. -/
def reserve (run : IoRun) (send : Send) (connection : Connection) : Attempt → IoRun
  | .retry cur => { run with connection, pc := .reserve send (.exchange cur) }
  | .refused =>
    { run with
      connection, pc := .ready, returned := run.returned ++ [(send, false)], result := false }
  | .granted =>
    { run with connection, pc := .sendInLoop send, callers := .send send :: run.callers }

/-- A step of the reservation of a `send` in another thread. -/
def reserveOther (run : IoRun) (send : Send) (l r : List (Send × Progress))
    (connection : Connection) : Attempt → IoRun
  | .retry cur =>
    { run with connection, calls := l ++ (send, .reserving (.exchange cur)) :: r }
  | .refused =>
    { run with connection, calls := l ++ r, returned := run.returned ++ [(send, false)] }
  | .granted => { run with connection, calls := l ++ (send, .granted) :: r }

/-! ### The system -/

/-- The steps of the loop, of the code of others in its thread, and of the other threads. -/
inductive Label where
  | event (events : UInt32) (reads : List ReadOutcome)
  | doPendingFunctors
  | functor (now : Int) (added : Bool)
  | sendInLoop
  | writeToSocket (outcome : WriteOutcome)
  | updateFd (success : Bool)
  | sent
  | enter
  | resume (answer : Bool)
  | send (data : Bytes)
  | reserve (spurious : Bool) (verdict : Attempt)
  | requestClose
  | connectEstablished (added : Bool)
  | connectDestroyed
  | refreshPeerActivity (now : Int)
  | setReadBuffer (buffer : Buffer)
  | sendOther (id : Nat) (data : Bytes)
  | reserveOther (send : Send) (spurious : Bool) (verdict : Attempt)
  | queueSend (send : Send)
  | queueInLoop (functor : Functor)

/-- The thread of the loop is in the loop itself. -/
def AtLoop (run : IoRun) : Prop := run.pc = .ready ∧ run.callers = []

/-- The thread of the loop is in the code of others. -/
def AtCallback (run : IoRun) : Prop :=
  run.pc = .ready ∧ ∃ caller callers, run.callers = caller :: callers ∧ caller.IsCallback

def Step (run : IoRun) (label : Label) (run' : IoRun) : Prop :=
  match label with
  | .event events reads =>
    run.AtLoop ∧ run.functors = [] ∧ run.handleEvent events reads = some run'
  | .doPendingFunctors =>
    run.AtLoop ∧ run.functors = []
      ∧ run' = { run with functors := run.pendingFunctors, pendingFunctors := [] }
  | .functor now added =>
    run.AtLoop ∧ ∃ functor functors, run.functors = functor :: functors
      ∧ run' = { run with functors }.runFunctor now added functor
  | .sendInLoop => ∃ send, run.pc = .sendInLoop send ∧ run' = run.sendInLoop send
  | .writeToSocket outcome =>
    ∃ events, run.pc = .writeToSocket events ∧ run' = run.writeToSocket events outcome
  | .updateFd success => run.pc = .updateFd ∧ run' = run.updateFd success
  | .sent =>
    run.pc = .ready ∧ ∃ send callers, run.callers = .send send :: callers
      ∧ run' = { run with
        callers, returned := run.returned ++ [(send, true)], result := true }
  | .enter => run.AtLoop ∧ run' = { run with callers := [.task] }
  | .resume answer =>
    run.pc = .ready ∧ ∃ caller callers, run.callers = caller :: callers ∧ caller.IsCallback
      ∧ run' = { run with callers }.resume answer caller
  | .send data => run.AtCallback ∧ run' = run.send data
  | .reserve spurious verdict =>
    ∃ send reservation connection, run.pc = .reserve send reservation
      ∧ run.connection.reserveWriteBytes send.data.length spurious reservation
        = (verdict, connection)
      ∧ run' = run.reserve send connection verdict
  | .requestClose => run.AtCallback ∧ run' = run.handleClose
  | .connectEstablished added => run.AtCallback ∧ run' = run.connectEstablished added
  | .connectDestroyed =>
    run.AtCallback ∧ run' = { run with connection := run.connection.connectDestroyed }
  | .refreshPeerActivity now =>
    run.AtCallback ∧ run' = { run with connection := run.connection.refreshPeerActivity now }
  | .setReadBuffer buffer =>
    run.AtCallback ∧ run' = { run with connection := { run.connection with readBuffer := buffer } }
  | .sendOther id data =>
    let send : Send := ⟨.other id, run.made, data⟩
    (∀ call ∈ run.calls, call.1.sender ≠ .other id)
      ∧ run' = if data = [] then
          { run with made := run.made + 1, returned := run.returned ++ [(send, false)] }
        else
          { run with made := run.made + 1, calls := run.calls ++ [(send, .reserving .load)] }
  | .reserveOther send spurious verdict =>
    ∃ l r reservation connection, run.calls = l ++ (send, .reserving reservation) :: r
      ∧ run.connection.reserveWriteBytes send.data.length spurious reservation
        = (verdict, connection)
      ∧ run' = run.reserveOther send l r connection verdict
  | .queueSend send =>
    ∃ l r, run.calls = l ++ (send, .granted) :: r
      ∧ run' = { run with
        calls := l ++ r
        pendingFunctors := run.pendingFunctors ++ [.sendInLoop send]
        returned := run.returned ++ [(send, true)] }
  | .queueInLoop functor =>
    functor.send = none ∧ run' = { run with pendingFunctors := run.pendingFunctors ++ [functor] }

/-- A connection that was just made, on a loop that knows nothing of it. -/
def Fresh (run : IoRun) : Prop :=
  ∃ now result, run = ⟨.new now, 0, .ready, [], [], [], [], result, [], [], 0, []⟩

def system : System IoRun Label where
  Initial := Fresh
  Step := Step

/-! ### What the functions do

Here is what each function of the loop may do to its connection, said once: what a step keeps
is shown from these lemmas, not from the functions. -/

variable {run run' : IoRun}

/-- How the handling of an event or of a write ends: a connection that is not connected is left
as it is, the connection is closed, or the thread of the loop is to write or to ask for
events. -/
inductive Ends (run : IoRun) : IoRun → Prop where
  | stay (hstate : run.connection.state ≠ .connected) : Ends run run
  | close : Ends run run.handleClose
  | write (events : UInt32) (hstate : run.connection.state = .connected) :
    Ends run { run with pc := .writeToSocket (some events) }
  | update (hbusy : run.connection.state = .connected ∨ ∃ events, run.pc = .writeToSocket events) :
    Ends run { run with pc := .updateFd }

/-- A connection is closed once: its write buffer is dropped, and the close callback called. -/
theorem handleClose_cases (run : IoRun) :
  (run.connection.state = .disconnecting ∨ run.connection.state = .disconnected)
      ∧ run.handleClose = { run with pc := .ready }
    ∨ ¬(run.connection.state = .disconnecting ∨ run.connection.state = .disconnected)
      ∧ run.handleClose = { run with
        connection := { run.connection with state := .disconnecting }.clearWriteBufferInLoop
        pc := .ready
        callers := .handleClose :: run.callers }
  := by
  rw [handleClose, Connection.handleClose]
  by_cases hstate : run.connection.state = .disconnecting ∨ run.connection.state = .disconnected
  · rw [if_pos hstate]
    exact .inl ⟨hstate, rfl⟩
  · rw [if_neg hstate]
    exact .inr ⟨hstate, rfl⟩

theorem connectEstablished_cases (run : IoRun) (added : Bool) :
  run.connectEstablished added = run
    ∨ (run.connection.state = .connecting ∧ run.connection.registered = false ∧ added = true
      ∧ run.connectEstablished added
        = { run with connection := run.connection.establish, interest := readEvents })
    ∨ run.connectEstablished added = run.handleClose
  := by
  rw [connectEstablished]
  split
  · exact .inl rfl
  · next hstate =>
    rw [not_or, not_not, Bool.not_eq_true] at hstate
    cases added with
    | true => exact .inr (.inl ⟨hstate.1, hstate.2, rfl, rfl⟩)
    | false => exact .inr (.inr rfl)

theorem checkTimeoutInLoop_cases (run : IoRun) (now timeout : Int) :
  run.checkTimeoutInLoop now timeout = run.handleClose
    ∨ run.checkTimeoutInLoop now timeout = run
  := by
  rw [checkTimeoutInLoop]
  split
  · exact .inl rfl
  · exact .inr rfl

theorem finishEvent_ends (events : UInt32) (success : Bool)
    (hbusy : run.connection.state = .connected ∨ ∃ events, run.pc = .writeToSocket events) :
  run.Ends (run.finishEvent events success)
  := by
  rw [finishEvent]
  split
  · exact .close
  split
  · exact .close
  · exact .update hbusy

theorem writeEvent_ends (events : UInt32) (hstate : run.connection.state = .connected) :
  run.Ends (run.writeEvent events)
  := by
  rw [writeEvent]
  split
  · exact .write events hstate
  · apply finishEvent_ends events true (.inl hstate)

/-- The connection reads when it handles the events. -/
def Reads (run : IoRun) (events : UInt32) : Prop :=
  run.connection.state = .connected ∧ events &&& (epollIn ||| epollRdhup) ≠ 0

/-- A read closes the connection, or the message callback is called behind it. -/
theorem handleEvent_cases {events : UInt32} {reads : List ReadOutcome}
    (h : run.handleEvent events reads = some run') :
  ¬run.Reads events ∧ run.Ends run'
    ∨ run.Reads events ∧ ∃ success connection,
      run.connection.readFromSocket reads = some (success, connection)
        ∧ run' = if success then
            { run with connection, callers := .handleEvent events :: run.callers }
          else
            { run with connection }.handleClose
  := by
  rw [handleEvent] at h
  split at h
  · next hstate =>
    cases h
    exact .inl ⟨fun hreads => hstate hreads.1, .stay hstate⟩
  next hstate =>
  rw [not_not] at hstate
  split at h
  · next hevents =>
    right
    use ⟨hstate, by simpa using hevents⟩
    split at h
    · cases h
    · next connection hread =>
      cases h
      exact ⟨false, connection, hread, rfl⟩
    · next connection hread =>
      cases h
      exact ⟨true, connection, hread, rfl⟩
  · next hevents =>
    cases h
    left
    use fun hreads => hevents (by simpa using hreads.2)
    apply writeEvent_ends events hstate

theorem resumeEvent_ends (run : IoRun) (events : UInt32) (answer : Bool) :
  run.Ends (run.resumeEvent events answer)
  := by
  rw [resumeEvent]
  split
  · exact .close
  split
  · next hstate => exact .stay hstate
  · next hstate => apply writeEvent_ends events (not_not.mp hstate)

/-- A turn of a write ends the write, does nothing, or hands the front of the write buffer to
the socket. -/
theorem writeToSocket_cases {events : Option UInt32} (hpc : run.pc = .writeToSocket events)
    (outcome : WriteOutcome) :
  run.Ends (run.writeToSocket events outcome)
    ∨ run.writeToSocket events outcome = run
    ∨ ∃ k ≤ run.connection.writeBuffer.readableBytes,
      run.writeToSocket events outcome = { run with
        connection := { run.connection with
          writeBuffer := run.connection.writeBuffer.retrieve k }.releaseWriteBytes k
        socket := run.socket ++ run.connection.writeBuffer.content.take k }
  := by
  rw [writeToSocket]
  obtain ⟨success, hwrite⟩ | hwrite | ⟨k, hk, hwrite⟩ := run.connection.writeToSocket_cases outcome
  · rw [hwrite]
    left
    cases events with
    | some events => apply finishEvent_ends events success (.inr ⟨_, hpc⟩)
    | none =>
      dsimp only
      rw [finishWrite]
      split
      · exact .close
      · exact .update (.inr ⟨_, hpc⟩)
  · rw [hwrite]
    dsimp only
    rw [List.append_nil]
    exact .inr (.inl rfl)
  · rw [hwrite]
    exact .inr (.inr ⟨k, hk, rfl⟩)

end IoRun

end RoomServer
