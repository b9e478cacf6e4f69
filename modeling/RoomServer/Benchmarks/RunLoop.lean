import RoomServer.Benchmarks.LoadGen
import RoomServer.Lib.Transition

/-!
# The main loop of the load generator

A turn of the loop reads the clock, may go on to the next phase, checks deadlines, drives the
clients and polls the sockets.  `Turn` holds what the world answers in one turn; a turn has no
result when one of its loops over due times does not end.  `running` is the system of all runs:
the clock never goes back, and the order of the table of clients may change when clients are
added to it.
-/

namespace RoomServer

namespace LoadGen

/-- What lies outside of the load generator: which texts are addresses, and the rounding of the
time between two connections, which is computed in floating point. -/
structure Platform where
  inetPton : String → Bool
  connectInterval : Nat → Time

/-- How `socket`, `connect` and `epoll_ctl` answer for a new client. -/
inductive ConnectOutcome where
  | socketFailed
  | connectFailed (fd : Fd)
  | epollFailed (fd : Fd)
  | started (fd : Fd)
  deriving DecidableEq, Repr

/-- An event of a client, with the reading of the clock and the answers of the socket. -/
structure PollEvent where
  fd : Fd
  epollIn : Bool := false
  epollOut : Bool := false
  epollRdHup : Bool := false
  epollErr : Bool := false
  epollHup : Bool := false
  now : Time
  connected : Bool := true
  connectSends : List Connection.WriteOutcome := []
  receives : List Connection.ReadOutcome := []
  sends : List Connection.WriteOutcome := []

/-- How `epoll_wait` answers. -/
inductive PollOutcome where
  | interrupted
  | failed
  | events (events : List PollEvent)

/-- What the world answers in a turn of the loop. -/
structure Turn where
  now : Time
  connects : Nat → ConnectOutcome
  sends : Fd → List Connection.WriteOutcome
  poll : PollOutcome

/-! ### Loops over due times -/

/-- `do { ++due; next += interval; } while (next <= now)`, within a number of turns. -/
def dueLoop (interval now : Time) : Nat → Time → Option (Nat × Time)
  | 0, _ => none
  | fuel + 1, next =>
    if next + interval ≤ now then
      (dueLoop interval now fuel (next + interval)).map fun (due, next) => (due + 1, next)
    else
      some (1, next + interval)

/-- The loop with as many turns as there are times: one that takes more never ends. -/
def doWhileDue (interval now next : Time) : Option (Nat × Time) :=
  dueLoop interval now (2 ^ 64) next

/-- `while (next <= now) next += interval`. -/
def whileDue (interval now next : Time) : Option Time :=
  if next ≤ now then (doWhileDue interval now next).map Prod.snd else some next

/-! ### Phases -/

/-- Write a client back. -/
def put (gen : LoadGen) (fd : Fd) (client : Client) : LoadGen :=
  { gen with clients := gen.clients.assign fd client }

/-- `transition_to(States::failed)`, which does not look at the time. -/
def fail (gen : LoadGen) : LoadGen := { gen with state := .failed }

/-- The next move of a client that is active, when the clients warm up. -/
def skipMoves (config : Config) (now : Time) (client : Client) : Option Client :=
  if client.state ≠ .active then
    some client
  else
    (whileDue (milliseconds config.moveIntervalMs) now client.nextMoveTime).map fun next =>
      { client with nextMoveTime := next }

def transitionTo (gen : LoadGen) (state : States) (now : Time) : Option LoadGen :=
  let gen := { gen with state := state }
  match state with
  | .rampUp => some { gen with nextConnectTime := now }
  | .warmUp =>
    if gen.clients.values.all fun client => (skipMoves gen.config now client).isSome then
      some { gen with
        clients := gen.clients.mapValues fun client =>
          (skipMoves gen.config now client).getD client
        phaseDeadline := now + milliseconds gen.config.warmUpMs }
    else
      none
  | .measure =>
    some { gen with
      measureStartedTime := now
      phaseDeadline := now + milliseconds gen.config.measureMs }
  | .drain =>
    some { gen with
      measureFinishedTime := now
      phaseDeadline := now + milliseconds gen.config.drainMs }
  | .created | .finished | .failed => some gen

/-! ### Failures -/

def closeClient (gen : LoadGen) (fd : Fd) (finalState : Clientstates) : LoadGen :=
  match gen.clients.lookup fd with
  | none => gen
  | some client =>
    { gen.put fd { client with state := finalState } with
      clients := ((gen.put fd { client with state := finalState }).clients).erase fd }

/-- The counters of a failure of a client. -/
def countFailure (result : Result) (client : Client) : Failurestates → Result
  | .connectError | .connectTimeout =>
    { result with connectionFailures := result.connectionFailures + 1 }
  | .joinError | .joinTimeout => { result with joinFailures := result.joinFailures + 1 }
  | .heartbeatTimeout => result
  | .socketError =>
    if client.state = .connecting then
      { result with connectionFailures := result.connectionFailures + 1 }
    else if client.state = .joining then
      { result with joinFailures := result.joinFailures + 1 }
    else
      result
  | .protocolError => { result with protocolErrors := result.protocolErrors + 1 }
  | .unexpectedClose => { result with unexpectedCloses := result.unexpectedCloses + 1 }

def failClient (gen : LoadGen) (fd : Fd) (failure : Failurestates) : LoadGen :=
  match gen.clients.lookup fd with
  | none => gen.fail
  | some client =>
    ({ gen with result := countFailure gen.result client failure }.closeClient fd .failed).fail

/-! ### New clients -/

def createClient (platform : Platform) (gen : LoadGen) (index : Nat) (now : Time)
    (outcome : ConnectOutcome) : Bool × LoadGen :=
  let attempted := { gen with result := { gen.result with
    connectionAttempts := gen.result.connectionAttempts + 1 } }
  let refused := { attempted with result := { attempted.result with
    connectionFailures := attempted.result.connectionFailures + 1 } }
  let client : Client := {
    index := index
    roomId := UInt32.ofNat (index / gen.config.roomCapacity + 1)
    stateDeadline := now + milliseconds gen.config.connectTimeoutMs }
  match outcome with
  | .socketFailed => (false, gen)
  | .connectFailed _ =>
    if !platform.inetPton gen.config.address then (false, gen) else (false, refused)
  | .epollFailed fd =>
    if !platform.inetPton gen.config.address then
      (false, gen)
    else if fd ∈ gen.clients then
      (false, refused)
    else
      (false, { refused with clients := (gen.clients.insert fd client).erase fd })
  | .started fd =>
    if !platform.inetPton gen.config.address then
      (false, gen)
    else if fd ∈ gen.clients then
      (false, refused)
    else
      (true, { attempted with clients := gen.clients.insert fd client })

/-- The loop of `startDueClients`, for at most as many turns as there are clients to create. -/
def startLoop (platform : Platform) (now connect : Time) (connects : Nat → ConnectOutcome) :
    Nat → LoadGen → Bool × LoadGen
  | 0, gen => (true, gen)
  | turns + 1, gen =>
    if gen.nextClientIndex < gen.config.clientCount ∧ now ≥ gen.nextConnectTime then
      match gen.createClient platform gen.nextClientIndex now (connects gen.nextClientIndex) with
      | (false, gen) => (false, gen)
      | (true, gen) =>
        startLoop platform now connect connects turns
          { gen with
            nextClientIndex := gen.nextClientIndex + 1
            nextConnectTime := gen.nextConnectTime + connect }
    else
      (true, gen)

def startDueClients (platform : Platform) (gen : LoadGen) (now : Time)
    (connects : Nat → ConnectOutcome) : Bool × LoadGen :=
  let connect := platform.connectInterval gen.config.connectionsPerSecond
  if connect ≤ 0 then
    (false, gen)
  else
    startLoop platform now connect connects (gen.config.clientCount - gen.nextClientIndex) gen

def allClientsActive (gen : LoadGen) : Bool :=
  gen.nextClientIndex = gen.config.clientCount ∧ gen.clients.size = gen.config.clientCount
    ∧ ∀ client ∈ gen.clients.values, client.state = .active

/-! ### Driving the clients -/

def recordSchedulerLag (gen : LoadGen) (expected actual : Time) : LoadGen :=
  { gen with schedulerLagUs := gen.schedulerLagUs ++
      [if actual ≤ expected then 0 else microseconds (actual - expected)] }

/-- The part of `driveActiveClients` that sends a heartbeat. -/
def driveHeartbeat (gen : LoadGen) (client : Client) (now : Time) :
    Option (Bool × LoadGen × Client) :=
  if now ≥ client.nextHeartbeatTime then
    match gen.queueHeartbeat client now with
    | (false, gen, client) => some (false, gen, client)
    | (true, gen, client) =>
      (doWhileDue (milliseconds gen.config.heartbeatIntervalMs) now
        client.nextHeartbeatTime).map fun (_, next) =>
          (true, gen, { client with nextHeartbeatTime := next })
  else
    some (true, gen, client)

/-- The part of `driveActiveClients` that sends a move. -/
def driveMove (gen : LoadGen) (client : Client) (now : Time) :
    Option (Bool × LoadGen × Client) :=
  if (gen.state = .warmUp ∨ gen.state = .measure) ∧ now ≥ client.nextMoveTime then
    (doWhileDue (milliseconds gen.config.moveIntervalMs) now
      client.nextMoveTime).map fun (dueMoveCount, next) =>
        let planned :=
          if gen.state = .measure then
            { gen with result := { gen.result with
              plannedMoveFrames := gen.result.plannedMoveFrames + dueMoveCount
              missedMoveDeadlines :=
                if dueMoveCount > 1 then
                  gen.result.missedMoveDeadlines + (dueMoveCount - 1)
                else
                  gen.result.missedMoveDeadlines } }.recordSchedulerLag client.nextMoveTime now
          else
            gen
        planned.queueMove { client with nextMoveTime := next }
  else
    some (true, gen, client)

/-- The part of `driveActiveClients` that writes. -/
def driveWrite (client : Client) (outcomes : List Connection.WriteOutcome) : Bool × Client :=
  if client.writeBuffer.empty then (true, client) else writeToClient client outcomes

/-- A turn of the loop of `driveActiveClients`: whether the loop goes on. -/
def driveClient (gen : LoadGen) (fd : Fd) (now : Time) (outcomes : List Connection.WriteOutcome) :
    Option (Bool × LoadGen) :=
  match gen.clients.lookup fd with
  | none => some (true, gen)
  | some client =>
    if client.state ≠ .active then
      some (true, gen)
    else
      match gen.driveHeartbeat client now with
      | none => none
      | some (false, gen, client) => some (false, (gen.put fd client).failClient fd .protocolError)
      | some (true, gen, client) =>
        match gen.driveMove client now with
        | none => none
        | some (false, gen, client) =>
          some (false, (gen.put fd client).failClient fd .protocolError)
        | some (true, gen, client) =>
          match driveWrite client outcomes with
          | (false, client) => some (false, (gen.put fd client).failClient fd .socketError)
          | (true, client) => some (true, gen.put fd client)

/-- The loop of `driveActiveClients` over the clients. -/
def driveActiveClients (now : Time) (sends : Fd → List Connection.WriteOutcome) :
    List Fd → LoadGen → Option LoadGen
  | [], gen => some gen
  | fd :: fds, gen =>
    match gen.driveClient fd now (sends fd) with
    | none => none
    | some (false, gen) => some gen
    | some (true, gen) => driveActiveClients now sends fds gen

/-! ### Deadlines -/

/-- The deadline that a client has missed. -/
def missedDeadline (config : Config) (now : Time) (client : Client) : Option Failurestates :=
  if client.state = .connecting ∧ now ≥ client.stateDeadline then
    some .connectTimeout
  else if client.state = .joining ∧ now ≥ client.stateDeadline then
    some .joinTimeout
  else if client.state ≠ .active then
    none
  else if client.pendingHeartbeats.values.any fun heartbeat =>
      decide (now ≥ heartbeat.sentTime + milliseconds config.heartbeatIntervalMs) then
    some .heartbeatTimeout
  else
    none

def checkClientDeadlines (gen : LoadGen) (now : Time) : LoadGen :=
  match gen.clients.entries.findSome? fun e =>
      (missedDeadline gen.config now e.2).map fun failure => (e.1, failure) with
  | none => gen
  | some (fd, failure) => gen.failClient fd failure

/-! ### Events -/

/-- The first part of `updateClientEvents`: a client that is connecting. -/
def connectEvent (gen : LoadGen) (client : Client) (event : PollEvent) :
    Option Failurestates × LoadGen × Client :=
  if client.state ≠ .connecting then
    (none, gen, client)
  else
    match gen.finishConnect client event.now event.connected with
    | (false, gen, client) =>
      (some (if client.state = .connecting then .connectError else .protocolError), gen, client)
    | (true, gen, client) =>
      match driveWrite client event.connectSends with
      | (false, client) => (some .socketError, gen, client)
      | (true, client) => (none, gen, client)

/-- The part of `updateClientEvents` that reads: `inl` when it fails. -/
def readEvent (gen : LoadGen) (client : Client) (event : PollEvent) :
    LoadGen ⊕ (LoadGen × Client) :=
  if event.epollIn || event.epollRdHup then
    match gen.readFromClient client event.now event.receives with
    | (true, gen, client) => .inr (gen, client)
    | (false, gen, client') =>
      let gen := gen.put event.fd client'
      if client'.state = .failed then
        .inl (gen.closeClient event.fd .failed).fail
      else if client'.state = .closing then
        .inl (gen.failClient event.fd
          (if client.state = .joining ∧ client'.playerId = 0 then
            .joinError
          else
            .unexpectedClose))
      else
        .inl (gen.failClient event.fd .socketError)
  else
    .inr (gen, client)

/-- The last part of `updateClientEvents`: writing, errors and hangups. -/
def writeEvent (gen : LoadGen) (client : Client) (event : PollEvent) : Bool × LoadGen :=
  let (success, client) :=
    if event.epollOut then writeToClient client event.sends else (true, client)
  let gen := gen.put event.fd client
  if !success then
    (false, gen.failClient event.fd .socketError)
  else if event.epollErr then
    (false, gen.failClient event.fd .socketError)
  else if event.epollHup then
    (false, gen.failClient event.fd
      (if client.state = .joining then .joinError else .unexpectedClose))
  else
    (true, gen)

def updateClientEvents (gen : LoadGen) (event : PollEvent) : Bool × LoadGen :=
  match gen.clients.lookup event.fd with
  | none => (true, gen)
  | some client =>
    if client.state = .connecting ∧ !(event.epollIn || event.epollOut || event.epollErr
        || event.epollHup || event.epollRdHup) then
      (true, gen)
    else
      match gen.connectEvent client event with
      | (some failure, gen, client) =>
        (false, (gen.put event.fd client).failClient event.fd failure)
      | (none, gen, client) =>
        match gen.readEvent client event with
        | .inl gen => (false, gen)
        | .inr (gen, client) => gen.writeEvent client event

/-- The loop of `pollOnce` over the events. -/
def handleEvents (gen : LoadGen) : List PollEvent → Bool × LoadGen
  | [] => (true, gen)
  | event :: events =>
    match gen.updateClientEvents event with
    | (false, gen) => (false, gen)
    | (true, gen) => gen.handleEvents events

def pollOnce (gen : LoadGen) : PollOutcome → Bool × LoadGen
  | .interrupted => (true, gen)
  | .failed => (false, gen)
  | .events events => gen.handleEvents events

/-! ### Turns -/

/-- The first part of a turn: the phases. -/
def beginTurn (platform : Platform) (gen : LoadGen) (turn : Turn) : Option LoadGen :=
  match gen.state with
  | .rampUp =>
    match gen.startDueClients platform turn.now turn.connects with
    | (false, gen) => some gen.fail
    | (true, gen) =>
      if gen.allClientsActive then gen.transitionTo .warmUp turn.now else some gen
  | .warmUp =>
    if turn.now ≥ gen.phaseDeadline then gen.transitionTo .measure turn.now else some gen
  | .measure =>
    if turn.now ≥ gen.phaseDeadline then gen.transitionTo .drain turn.now else some gen
  | .drain =>
    if turn.now ≥ gen.phaseDeadline then gen.transitionTo .finished turn.now else some gen
  | .created => some gen.fail
  | .finished | .failed => some gen

/-- The rest of a turn: deadlines, clients and sockets. -/
def finishTurn (gen : LoadGen) (turn : Turn) : Option LoadGen :=
  if gen.state = .finished ∨ gen.state = .failed then
    some gen
  else
    let gen := gen.checkClientDeadlines turn.now
    if gen.state = .failed then
      some gen
    else
      let driven :=
        if gen.state = .rampUp ∨ gen.state = .warmUp ∨ gen.state = .measure then
          driveActiveClients turn.now turn.sends gen.clients.keys gen
        else
          some gen
      driven.map fun gen =>
        if gen.state = .failed then
          gen
        else
          match gen.pollOnce turn.poll with
          | (true, gen) => gen
          | (false, gen) => gen.fail

/-- The readings of the clock in a turn. -/
def Turn.readings (turn : Turn) : List Time :=
  match turn.poll with
  | .events events => turn.now :: events.map PollEvent.now
  | _ => [turn.now]

/-- The same load generator with its clients in another order. -/
structure Reordered (gen gen' : LoadGen) : Prop where
  clients : gen.clients.Similar gen'.clients
  rest : gen' = { gen with clients := gen'.clients }

/-- A turn of the loop, from a state with the last reading of the clock to one with a later. -/
structure Turns (platform : Platform) (s : LoadGen × Time) (turn : Turn) (s' : LoadGen × Time) :
    Prop where
  runs : s.1.state ≠ .finished ∧ s.1.state ≠ .failed
  monotone : (s.2 :: turn.readings).IsChain (· ≤ ·)
  last : s'.2 = turn.readings.getLastD s.2
  turn : ∃ begun reordered, s.1.beginTurn platform turn = some begun
    ∧ begun.Reordered reordered ∧ reordered.finishTurn turn = some s'.1

/-- The runs of a configuration that `validateConfig` accepts, seen at the head of the loop. -/
def running (platform : Platform) (config : Config) : System (LoadGen × Time) Turn where
  Initial s := validateConfig platform.inetPton config ∧ 0 ≤ s.2
    ∧ (LoadGen.new config).transitionTo .rampUp s.2 = some s.1
  Step := Turns platform

/-! ### The verdict -/

def moveAccountingValid (gen : LoadGen) : Bool :=
  gen.result.plannedMoveFrames ≥ gen.result.sentMoveFrames
    ∧ gen.result.plannedMoveFrames - gen.result.sentMoveFrames = gen.result.missedMoveDeadlines

def finalizeResult (gen : LoadGen) : LoadGen :=
  let clientWorkloadComplete := gen.clients.values.all fun client =>
    client.pendingHeartbeats.size = 0 ∧ client.writeBuffer.empty ∧ client.hasSnapshot
  let workloadCompleted : Bool := gen.state = .finished ∧ gen.allClientsActive
    ∧ clientWorkloadComplete
    ∧ gen.result.connectionAttempts = gen.config.clientCount
    ∧ gen.result.connectionSuccesses = gen.config.clientCount
    ∧ gen.result.joinSuccesses = gen.config.clientCount
    ∧ gen.measureFinishedTime > gen.measureStartedTime
  let correctnessPassed : Bool := workloadCompleted ∧ gen.result.connectionFailures = 0
    ∧ gen.result.joinFailures = 0
    ∧ gen.result.plannedMoveFrames > 0 ∧ gen.result.sentMoveFrames > 0
    ∧ gen.moveAccountingValid
    ∧ gen.result.heartbeatFrames > 0 ∧ gen.result.heartbeatFrames = gen.result.heartbeatAcks
    ∧ gen.heartbeatRttUs.length = gen.result.heartbeatAcks
    ∧ gen.result.snapshotFrames > 0 ∧ gen.result.tickGaps = 0 ∧ gen.result.errorFrames = 0
    ∧ gen.result.protocolErrors = 0 ∧ gen.result.unexpectedCloses = 0
  { gen with result := { gen.result with workloadCompleted, correctnessPassed } }

end LoadGen

end RoomServer
