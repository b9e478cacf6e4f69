import RoomServer.Game.RoomManager
import RoomServer.Game.SessionManager
import RoomServer.Net.Codec

/-!
# The room service

`RoomService` handles the requests of the players: it keeps the rooms and the sessions in step
and tells the connections what happened.  Its handlers run one after the other, as the tasks
of one loop.

A handler returns the service after it and the `Event`s on the connections in their order.
What a connection answers to a frame, accepting or refusing it, is up to the connection, and
given by `Answers` as a function of the events so far.  The clock and the generated tokens are
inputs of the tasks.
-/

namespace RoomServer

/-- What a task does to a connection. -/
inductive Event where
  | sent (c : ConnId) (frame : Bytes) (accepted : Bool)
  | skipped (c : ConnId)
  | closeRequested (c : ConnId)
  deriving DecidableEq, Repr

/-- What the connections answer, after the events so far of a task. -/
structure Answers where
  send : List Event → ConnId → Bytes → Bool
  underBackpressure : List Event → ConnId → Bool

structure RoomService where
  roomManager : RoomManager
  sessionManager : SessionManager

namespace RoomService

def new (reconnectTimeout : Int) : RoomService := ⟨.new, .new reconnectTimeout⟩

def stateToErrorCode : RoomManager.States → Option ErrorCode
  | .roomNotFound => some .roomNotFound
  | .roomFull => some .roomFull
  | .roomNotJoinable => some .roomNotJoinable
  | .notInRoom => some .notInRoom
  | .invalidPlayerName => some .invalidPlayerName
  | .invalidMessage => some .invalidMessage
  | .playerIdExhausted => some .playerIdExhausted
  | .roomNotRunning => some .roomNotRunning
  | .alreadySubmitted => some .alreadySubmitted
  | .success | .invalidConnection | .internalError => none

def sessionStateToErrorCode : SessionManager.States → Option ErrorCode
  | .invalidToken => some .invalidToken
  | .sessionOnline => some .sessionOnline
  | .sessionExpired => some .sessionExpired
  | .success | .wrongThread | .invalidConnection | .alreadyBound | .sessionNotExpired
  | .notBound | .internalError => none

/-- The members of the rooms are the players of the sessions. -/
def identitiesMatch (rooms : List RoomCheckpoint) (sessions : List SessionCheckpoint) : Bool :=
  let roomIdentities := rooms.flatMap fun room =>
    room.members.map fun member => (room.roomId, member.playerId)
  let sessionIdentities := sessions.map fun session => (session.roomId, session.playerId)
  roomIdentities.all (fun identity => sessionIdentities.contains identity)
    && sessionIdentities.all (fun identity => roomIdentities.contains identity)

def addRoom (service : RoomService) (inLoop : Bool) (roomId : UInt32) (capacity : UInt64) :
    Bool × RoomService :=
  if !inLoop then
    (false, service)
  else
    let (added, roomManager) := service.roomManager.addRoom roomId capacity
    (added, { service with roomManager })

/-! ### Frames -/

/-- Send a frame to one connection; a connection that refuses it is to be closed. -/
def sendFrame (answers : Answers) (events : List Event) (connection : ConnectionPtr)
    (type : MessageType) (payload : Bytes) : Bool × List Event :=
  match connection with
  | none => (false, events)
  | some c =>
    match Codec.encode type.toU16 payload with
    | none => (false, events)
    | some frame =>
      if answers.send events c frame then
        (true, events ++ [.sent c frame true])
      else
        (false, events ++ [.sent c frame false, .closeRequested c])

/-- Send the frame to the connections one after the other.  Snapshots are not forced on a
connection: they pass over one under backpressure and do not close one that refuses. -/
def broadcastLoop (answers : Answers) (isSnapshot : Bool) (frame : Bytes) :
    List Event → List ConnectionPtr → Bool × List Event
  | events, [] => (true, events)
  | events, none :: connections => broadcastLoop answers isSnapshot frame events connections
  | events, some c :: connections =>
    if isSnapshot then
      if answers.underBackpressure events c then
        broadcastLoop answers isSnapshot frame (events ++ [.skipped c]) connections
      else
        let accepted := answers.send events c frame
        broadcastLoop answers isSnapshot frame (events ++ [.sent c frame accepted]) connections
    else if answers.send events c frame then
      broadcastLoop answers isSnapshot frame (events ++ [.sent c frame true]) connections
    else
      let (_, events) := broadcastLoop answers isSnapshot frame
        (events ++ [.sent c frame false, .closeRequested c]) connections
      (false, events)

def broadcastFrame (answers : Answers) (events : List Event) (connections : List ConnectionPtr)
    (type : MessageType) (payload : Bytes) : Bool × List Event :=
  match Codec.encode type.toU16 payload with
  | none => (false, events)
  | some frame => broadcastLoop answers (type == .stateSnapshot) frame events connections

def sendError (answers : Answers) (events : List Event) (connection : ConnectionPtr)
    (requestType : MessageType) (errorCode : ErrorCode) : Bool × List Event :=
  match Protocol.encodeError requestType errorCode with
  | none => (false, events)
  | some payload => sendFrame answers events connection .error payload

/-- Report a failure, if there is an error code for it. -/
def report (answers : Answers) (connection : ConnectionPtr) (requestType : MessageType) :
    Option ErrorCode → List Event
  | none => []
  | some errorCode => (sendError answers [] connection requestType errorCode).2

/-! ### Requests -/

/-- Take back a join: the member leaves, and the session ends if it could. -/
def rollbackJoin (service : RoomService) (connection : ConnectionPtr) (roomId : UInt32)
    (playerId : UInt64) : RoomService :=
  let (rollbackResult, roomManager) := service.roomManager.leave roomId playerId
  let service := { service with roomManager }
  if rollbackResult.state = .success then
    let (_, sessionManager) := service.sessionManager.eraseByConnection connection
    { service with sessionManager }
  else
    service

/-- A new player joins a room and opens a session. -/
def handleJoin (service : RoomService) (answers : Answers) (token : Bytes)
    (connection : ConnectionPtr) (payload : Bytes) : RoomService × List Event :=
  match Protocol.decodeJoinRequest payload with
  | none => (service, (sendError answers [] connection .join .invalidPlayerName).2)
  | some request =>
    match (service.sessionManager.lookup connection).state with
    | .success => (service, (sendError answers [] connection .join .alreadyInRoom).2)
    | .notBound =>
      let (result, roomManager) :=
        service.roomManager.join connection request.roomId request.playerName
      let service := { service with roomManager }
      if result.state ≠ .success then
        (service, report answers connection .join (stateToErrorCode result.state))
      else
        let (sessionResult, sessionManager) :=
          service.sessionManager.create token connection result.roomId result.playerId
        let service := { service with sessionManager }
        if sessionResult.state ≠ .success then
          let (_, roomManager) := service.roomManager.leave result.roomId result.playerId
          ({ service with roomManager }, [])
        else
          match Protocol.encodeJoinOk result.roomId result.playerId sessionResult.token
              result.members,
            Protocol.encodePlayerJoined result.roomId result.playerId request.playerName with
          | some responsePayload, some eventPayload =>
            let (startState, roomManager) := service.roomManager.startIfFull result.roomId
            let service := { service with roomManager }
            if startState ≠ .success then
              (service.rollbackJoin connection result.roomId result.playerId,
                report answers connection .join (stateToErrorCode startState))
            else
              let (_, events) := sendFrame answers [] connection .joinOk responsePayload
              let (_, events) := broadcastFrame answers events result.notifyConnections
                .playerJoined eventPayload
              (service, events)
          | _, _ => (service.rollbackJoin connection result.roomId result.playerId, [])
    | _ => (service, [])

/-- A player takes up its session on a new connection. -/
def handleResume (service : RoomService) (answers : Answers) (now : Int)
    (connection : ConnectionPtr) (payload : Bytes) : RoomService × List Event :=
  match Protocol.decodeResumeRequest payload with
  | none => (service, (sendError answers [] connection .resume .invalidToken).2)
  | some request =>
    let (sessionResult, sessionManager) :=
      service.sessionManager.resume connection request.token now
    let service := { service with sessionManager }
    if sessionResult.state ≠ .success then
      (service,
        report answers connection .resume (sessionStateToErrorCode sessionResult.state))
    else
      let (roomResult, roomManager) := service.roomManager.bindConnection sessionResult.roomId
        sessionResult.playerId connection
      let service := { service with roomManager }
      if roomResult.state ≠ .success then
        let (_, sessionManager) := service.sessionManager.rollbackResume connection
        ({ service with sessionManager },
          (sendError answers [] connection .resume .resumeFailed).2)
      else
        match Protocol.encodeResumeOk roomResult.roomId roomResult.playerId roomResult.roomState
            roomResult.tickId roomResult.members roomResult.snapshot with
        | none =>
          let (_, roomManager) := service.roomManager.detachConnection roomResult.roomId
            roomResult.playerId connection
          let (_, sessionManager) := service.sessionManager.rollbackResume connection
          (⟨roomManager, sessionManager⟩, [])
        | some responsePayload =>
          (service, (sendFrame answers [] connection .resumeOk responsePayload).2)

/-- The player of a connection; a connection without one is told so. -/
def lookupIdentity (service : RoomService) (answers : Answers) (connection : ConnectionPtr)
    (requestType : MessageType) : Option (UInt32 × UInt64) × List Event :=
  let result := service.sessionManager.lookup connection
  match result.state with
  | .success => (some (result.roomId, result.playerId), [])
  | .notBound => (none, (sendError answers [] connection requestType .notInRoom).2)
  | _ => (none, [])

/-- A player leaves for good. -/
def handleLeave (service : RoomService) (answers : Answers) (connection : ConnectionPtr)
    (payload : Bytes) : RoomService × List Event :=
  if !Protocol.decodeLeaveRequest payload then
    (service, (sendError answers [] connection .leave .invalidMessage).2)
  else
    match service.lookupIdentity answers connection .leave with
    | (none, events) => (service, events)
    | (some (roomId, playerId), _) =>
      let (result, roomManager) := service.roomManager.leave roomId playerId
      let service := { service with roomManager }
      if result.state ≠ .success then
        (service, report answers connection .leave (stateToErrorCode result.state))
      else
        let (_, sessionManager) := service.sessionManager.eraseByConnection connection
        let service := { service with sessionManager }
        match Protocol.encodeLeaveOk roomId with
        | none => (service, [])
        | some responsePayload =>
          let (_, events) := sendFrame answers [] connection .leaveOk responsePayload
          match Protocol.encodePlayerLeft roomId playerId with
          | none => (service, events)
          | some eventPayload =>
            let (_, events) := broadcastFrame answers events result.notifyConnections
              .playerLeft eventPayload
            (service, events)

def handleChat (service : RoomService) (answers : Answers) (connection : ConnectionPtr)
    (payload : Bytes) : RoomService × List Event :=
  match Protocol.decodeChatRequest payload with
  | none => (service, (sendError answers [] connection .chat .invalidMessage).2)
  | some request =>
    match service.lookupIdentity answers connection .chat with
    | (none, events) => (service, events)
    | (some (roomId, playerId), _) =>
      let result := service.roomManager.chat roomId playerId request.message
      if result.state ≠ .success then
        (service, report answers connection .chat (stateToErrorCode result.state))
      else
        match Protocol.encodeChatEvent roomId playerId request.message with
        | none => (service, [])
        | some eventPayload =>
          (service,
            (broadcastFrame answers [] result.notifyConnections .chatEvent eventPayload).2)

/-- Hand a command of the player of a connection to its room. -/
def handleCommand (service : RoomService) (answers : Answers) (connection : ConnectionPtr)
    (requestType : MessageType)
    (command : RoomManager → UInt32 → UInt64 → RoomManager.CommandResult × RoomManager) :
    RoomService × List Event :=
  match service.lookupIdentity answers connection requestType with
  | (none, events) => (service, events)
  | (some (roomId, playerId), _) =>
    let (result, roomManager) := command service.roomManager roomId playerId
    let service := { service with roomManager }
    if result.state ≠ .success then
      (service, report answers connection requestType (stateToErrorCode result.state))
    else
      (service, [])

def handleMove (service : RoomService) (answers : Answers) (connection : ConnectionPtr)
    (payload : Bytes) : RoomService × List Event :=
  match Protocol.decodeMoveRequest payload with
  | none => (service, (sendError answers [] connection .move .invalidMessage).2)
  | some request =>
    service.handleCommand answers connection .move fun manager roomId playerId =>
      manager.move roomId playerId request.dx request.dy

def handleAttack (service : RoomService) (answers : Answers) (connection : ConnectionPtr)
    (payload : Bytes) : RoomService × List Event :=
  match Protocol.decodeAttackRequest payload with
  | none => (service, (sendError answers [] connection .attack .invalidMessage).2)
  | some request =>
    service.handleCommand answers connection .attack fun manager roomId playerId =>
      manager.attack roomId playerId request.targetPlayerId

/-- Hand a frame to the handler of its type. -/
def handleFrameInLoop (service : RoomService) (answers : Answers) (token : Bytes) (now : Int)
    (connection : ConnectionPtr) (type : UInt16) (payload : Bytes) : RoomService × List Event :=
  if connection.isNone then
    (service, [])
  else
    match MessageType.ofU16 type with
    | some .join => service.handleJoin answers token connection payload
    | some .leave => service.handleLeave answers connection payload
    | some .chat => service.handleChat answers connection payload
    | some .move => service.handleMove answers connection payload
    | some .attack => service.handleAttack answers connection payload
    | some .resume => service.handleResume answers now connection payload
    | _ => (service, [])

/-! ### Other tasks -/

/-- The session of a closed connection goes offline, and its player stays. -/
def handleConnectionClosed (service : RoomService) (connection : ConnectionPtr) (now : Int) :
    RoomService :=
  if connection.isNone then
    service
  else
    let lookupResult := service.sessionManager.lookup connection
    if lookupResult.state ≠ .success then
      service
    else
      let (detachResult, roomManager) := service.roomManager.detachConnection
        lookupResult.roomId lookupResult.playerId connection
      let service := { service with roomManager }
      if detachResult.state ≠ .success then
        service
      else
        let (_, sessionManager) := service.sessionManager.detach connection now
        { service with sessionManager }

/-- Send the snapshots of the rooms that ticked. -/
def sendSnapshots (answers : Answers) :
    List Event → List RoomManager.TickResult → List Event
  | events, [] => events
  | events, result :: results =>
    if result.notifyConnections.isEmpty then
      sendSnapshots answers events results
    else
      match Protocol.encodeStateSnapshot result.roomId result.tickId result.snapshot with
      | none => sendSnapshots answers events results
      | some payload =>
        let (_, events) := broadcastFrame answers events result.notifyConnections
          .stateSnapshot payload
        sendSnapshots answers events results

def handleTick (service : RoomService) (answers : Answers) (expirations : UInt64) :
    RoomService × List Event :=
  if expirations = 0 then
    (service, [])
  else
    let (results, roomManager) := service.roomManager.tickRooms
    ({ service with roomManager }, sendSnapshots answers [] results)

/-- Remove the players of the expired sessions. -/
def removeExpired (answers : Answers) (now : Int) :
    RoomService → List Event → List SessionManager.ExpiredSession → RoomService × List Event
  | service, events, [] => (service, events)
  | service, events, item :: expired =>
    let (leaveResult, roomManager) := service.roomManager.leave item.roomId item.playerId
    let service := { service with roomManager }
    if leaveResult.state ≠ .success then
      removeExpired answers now service events expired
    else
      let (eraseState, sessionManager) := service.sessionManager.eraseExpired item.token now
      let service := { service with sessionManager }
      if eraseState ≠ .success then
        removeExpired answers now service events expired
      else
        match Protocol.encodePlayerLeft item.roomId item.playerId with
        | none => removeExpired answers now service events expired
        | some eventPayload =>
          let (_, events) := broadcastFrame answers events leaveResult.notifyConnections
            .playerLeft eventPayload
          removeExpired answers now service events expired

def handleSessionTimeouts (service : RoomService) (answers : Answers) (now : Int) :
    RoomService × List Event :=
  removeExpired answers now service [] (service.sessionManager.expiredSessions now)

/-! ### Checkpoints -/

def makeCheckpoint (service : RoomService) (inLoop : Bool) (generation : UInt64) :
    Option ServerCheckpoint :=
  if generation = 0 then
    none
  else if !inLoop then
    none
  else do
    let rooms ← service.roomManager.makeCheckpoint
    let sessions ← service.sessionManager.makeCheckpoint
    if !identitiesMatch rooms sessions then
      none
    else
      return ⟨generation, rooms, sessions⟩

/-- Take over the data of a checkpoint: first the rooms, then the sessions. -/
def restoreCheckpoint (service : RoomService) (inLoop : Bool) (checkpoint : ServerCheckpoint)
    (now : Int) : Bool × RoomService :=
  if checkpoint.generation = 0 then
    (false, service)
  else if !inLoop then
    (false, service)
  else if !identitiesMatch checkpoint.rooms checkpoint.sessions then
    (false, service)
  else
    match RoomManager.restoreCheckpoint checkpoint.rooms with
    | none => (false, service)
    | some roomManager =>
      let service := { service with roomManager }
      match service.sessionManager.restoreCheckpoint checkpoint.sessions now with
      | none => (false, service)
      | some sessionManager => (true, { service with sessionManager })

end RoomService

/-! ### Tasks -/

/-- A task of the loop, with what it reads from the clock and the generated token. -/
inductive Task where
  | frame (connection : ConnectionPtr) (type : UInt16) (payload : Bytes) (token : Bytes)
    (now : Int)
  | connectionClosed (connection : ConnectionPtr) (now : Int)
  | tick (expirations : UInt64)
  | sessionTimeouts (now : Int)

namespace RoomService

/-- Run a task. -/
def run (service : RoomService) (answers : Answers) : Task → RoomService × List Event
  | .frame connection type payload token now =>
    service.handleFrameInLoop answers token now connection type payload
  | .connectionClosed connection now => (service.handleConnectionClosed connection now, [])
  | .tick expirations => service.handleTick answers expirations
  | .sessionTimeouts now => service.handleSessionTimeouts answers now

end RoomService

end RoomServer
