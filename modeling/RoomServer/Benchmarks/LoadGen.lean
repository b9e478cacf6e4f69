import RoomServer.Lib.UnorderedMap
import RoomServer.Net.Codec
import RoomServer.Net.Connection
import RoomServer.Net.Protocol

/-!
# The load generator

`LoadGen` plays many clients against the server: it connects them, joins rooms, sends
heartbeats and moves on schedule, and counts what it sends and receives.  This module has its
data and what it does to one client; the answers of the system calls are arguments.

Times are nanoseconds of the steady clock, which counts from zero when the machine starts, in
signed numbers of 64 bits: a sum of times that is too large for these wraps around.  A client is
kept under its descriptor.
The texts of the first failure, which only the report reads, are left out, and so are the sample
statistics other than their counts.  The phase in which a heartbeat was sent, and the phases of
the heartbeats whose acknowledgements were counted, are recorded beside the data; nothing reads
them.
-/

namespace RoomServer

namespace LoadGen

inductive States where
  | created
  | rampUp
  | warmUp
  | measure
  | drain
  | finished
  | failed
  deriving DecidableEq, Repr

inductive Clientstates where
  | connecting
  | joining
  | active
  | closing
  | closed
  | failed
  deriving DecidableEq, Repr

inductive Failurestates where
  | connectError
  | connectTimeout
  | joinError
  | joinTimeout
  | heartbeatTimeout
  | socketError
  | protocolError
  | unexpectedClose
  deriving DecidableEq, Repr

/-- A reading of the steady clock, or a duration, in nanoseconds. -/
abbrev Time : Type := Int64

instance : Trans (fun s t : Time => s ≤ t) (fun s t => s ≤ t) (fun s t => s ≤ t) where
  trans := Int64.le_trans

/-- A descriptor. -/
abbrev Fd : Type := Nat

/-- A count of milliseconds as a duration of the clock: the count becomes a signed number of 64
bits and is then multiplied. -/
def milliseconds (count : UInt64) : Time := count.toInt64 * 1000000

/-- A duration in microseconds, as a number without a sign. -/
def microseconds (duration : Time) : Nat := (duration / 1000).toUInt64.toNat

structure Config where
  address : String
  port : UInt16
  clientCount : Nat
  roomCapacity : Nat
  connectionsPerSecond : Nat
  connectTimeoutMs : UInt64
  joinTimeoutMs : UInt64
  moveIntervalMs : UInt64
  heartbeatIntervalMs : UInt64
  warmUpMs : UInt64
  measureMs : UInt64
  drainMs : UInt64
  deriving DecidableEq, Repr

structure Result where
  connectionAttempts : Nat := 0
  connectionSuccesses : Nat := 0
  connectionFailures : Nat := 0
  joinSuccesses : Nat := 0
  joinFailures : Nat := 0
  plannedMoveFrames : Nat := 0
  sentMoveFrames : Nat := 0
  missedMoveDeadlines : Nat := 0
  heartbeatFrames : Nat := 0
  heartbeatAcks : Nat := 0
  snapshotFrames : Nat := 0
  tickGaps : Nat := 0
  errorFrames : Nat := 0
  protocolErrors : Nat := 0
  unexpectedCloses : Nat := 0
  workloadCompleted : Bool := false
  correctnessPassed : Bool := false
  deriving DecidableEq, Repr

/-- A heartbeat that is not acknowledged: the time, and the phase, in which it was sent. -/
structure Heartbeat where
  sentTime : Time
  phase : States
  deriving DecidableEq, Repr

structure Client where
  index : Nat
  state : Clientstates := .connecting
  roomId : UInt32
  playerId : UInt64 := 0
  nextHeartbeatSeq : UInt64 := 1
  lastTickId : UInt64 := 0
  hasTick : Bool := false
  hasSnapshot : Bool := false
  nextMovePositive : Bool := true
  readBuffer : Buffer := Buffer.new 4096
  writeBuffer : Buffer := Buffer.new 4096
  stateDeadline : Time := 0
  nextHeartbeatTime : Time := 0
  nextMoveTime : Time := 0
  lastSnapshotTime : Time := 0
  pendingHeartbeats : UnorderedMap UInt64 Heartbeat := ∅

end LoadGen

open LoadGen

structure LoadGen where
  config : Config
  state : States
  nextClientIndex : Nat
  clients : UnorderedMap Fd Client
  nextConnectTime : Time
  phaseDeadline : Time
  measureStartedTime : Time
  measureFinishedTime : Time
  result : Result
  heartbeatRttUs : List Nat
  snapshotIntervalUs : List Nat
  schedulerLagUs : List Nat
  counted : List States

namespace LoadGen

def new (config : Config) : LoadGen where
  config := config
  state := .created
  nextClientIndex := 0
  clients := ∅
  nextConnectTime := 0
  phaseDeadline := 0
  measureStartedTime := 0
  measureFinishedTime := 0
  result := {}
  heartbeatRttUs := []
  snapshotIntervalUs := []
  schedulerLagUs := []
  counted := []

/-- `inetPton` tells whether a text is an address. -/
def validateConfig (inetPton : String → Bool) (config : Config) : Bool :=
  config.address ≠ "" ∧ config.port ≠ 0 ∧ inetPton config.address
    ∧ config.clientCount ≠ 0 ∧ config.roomCapacity ≠ 0 ∧ config.connectionsPerSecond ≠ 0
    ∧ ¬(config.moveIntervalMs < 50 ∨ config.roomCapacity > Protocol.maxU16)
    ∧ config.clientCount / config.roomCapacity ≤ 4294967295
    ∧ config.clientCount % config.roomCapacity = 0
    ∧ config.connectTimeoutMs ≠ 0 ∧ config.joinTimeoutMs ≠ 0 ∧ config.moveIntervalMs ≠ 0
    ∧ config.heartbeatIntervalMs ≠ 0 ∧ config.warmUpMs ≠ 0 ∧ config.measureMs ≠ 0
    ∧ config.drainMs ≠ 0
    ∧ ¬(config.measureMs < config.moveIntervalMs ∨ config.measureMs < config.heartbeatIntervalMs)

/-! ### Reading payloads -/

/-- Read a number and go past it. -/
def readU16 (data : Bytes) (offset : Nat) : Option (UInt16 × Nat) :=
  (Protocol.readU16 data offset).map fun value => (value, offset + 2)

def readU32 (data : Bytes) (offset : Nat) : Option (UInt32 × Nat) :=
  (Protocol.readU32 data offset).map fun value => (value, offset + 4)

def readU64 (data : Bytes) (offset : Nat) : Option (UInt64 × Nat) := do
  let (high, offset) ← readU32 data offset
  let (low, offset) ← readU32 data offset
  return (high.toUInt64 <<< 32 ||| low.toUInt64, offset)

/-- The loop over the members of a `joinOk`. -/
def readMembers (payload : Bytes) : Nat → Nat → Option Nat
  | 0, offset => some offset
  | count + 1, offset => do
    let (memberId, offset) ← readU64 payload offset
    let (nameSize, offset) ← readU16 payload offset
    if memberId = 0 ∨ nameSize = 0 ∨ nameSize.toNat > Protocol.maxPlayerNameSize
        ∨ offset > payload.length ∨ payload.length - offset < nameSize.toNat then
      none
    else
      readMembers payload count (offset + nameSize.toNat)

/-- The checks of a `joinOk` for a client of a room: the id of the client, none when one of the
checks fails. -/
def readJoinOk (room : UInt32) (payload : Bytes) : Option UInt64 := do
  let (roomId, offset) ← readU32 payload 0
  let (playerId, offset) ← readU64 payload offset
  let (tokenSize, offset) ← readU16 payload offset
  if tokenSize = 0 ∨ tokenSize.toNat > Protocol.maxTokenSize ∨ offset > payload.length
      ∨ payload.length - offset < tokenSize.toNat then
    none
  else
    let offset := offset + tokenSize.toNat
    let (memberCount, offset) ← readU16 payload offset
    let offset ← readMembers payload memberCount.toNat offset
    if offset ≠ payload.length ∨ roomId ≠ room ∨ playerId = 0 then
      none
    else
      return playerId

/-- The checks of a `playerJoined` for a client of a room. -/
def readPlayerJoined (room : UInt32) (payload : Bytes) : Option Unit := do
  let (roomId, offset) ← readU32 payload 0
  let (playerId, offset) ← readU64 payload offset
  let (nameSize, offset) ← readU16 payload offset
  if roomId ≠ room ∨ playerId = 0 ∨ nameSize = 0 ∨ nameSize.toNat > Protocol.maxPlayerNameSize
      ∨ offset > payload.length ∨ payload.length - offset ≠ nameSize.toNat then
    none
  else
    return ()

/-- The loop over the states of a `stateSnapshot`: whether the client is among them, and the
offset behind them. -/
def readStates (self : UInt64) (payload : Bytes) :
    Nat → List UInt64 → Bool → Nat → Option (Bool × Nat)
  | 0, _, containsSelf, offset => some (containsSelf, offset)
  | count + 1, playerIds, containsSelf, offset => do
    let (playerId, offset) ← readU64 payload offset
    let (_, offset) ← readU32 payload offset
    let (_, offset) ← readU32 payload offset
    let (_, offset) ← readU32 payload offset
    if playerId = 0 ∨ playerId ∈ playerIds then
      none
    else
      readStates self payload count (playerIds ++ [playerId]) (containsSelf || playerId == self)
        offset

abbrev stateSize : Nat := 8 + 4 * 3

/-- The checks of a `stateSnapshot` for a client of a room: the tick. -/
def readStateSnapshot (room : UInt32) (self : UInt64) (roomCapacity : Nat) (payload : Bytes) :
    Option UInt64 := do
  let (roomId, offset) ← readU32 payload 0
  let (tickId, offset) ← readU64 payload offset
  let (stateCount, offset) ← readU16 payload offset
  if roomId ≠ room ∨ tickId = 0 ∨ stateCount.toNat ≠ roomCapacity ∨ offset > payload.length
      ∨ payload.length - offset ≠ stateCount.toNat * stateSize then
    none
  else
    let (containsSelf, offset) ← readStates self payload stateCount.toNat [] false offset
    if !containsSelf ∨ offset ≠ payload.length then
      none
    else
      return tickId

/-- The checks of a `heartbeatAck`: the number. -/
def readHeartbeatAck (payload : Bytes) : Option UInt64 := do
  let (seq, offset) ← readU64 payload 0
  if offset ≠ payload.length then
    none
  else
    return seq

/-- The checks of an `error`. -/
def readError (payload : Bytes) : Option Unit := do
  let (requestType, offset) ← readU16 payload 0
  let (errorCode, offset) ← readU16 payload offset
  if offset ≠ payload.length then
    none
  else
    match MessageType.ofU16 requestType with
    | some .join | some .leave | some .chat | some .move | some .attack | some .resume =>
      if errorCode < ErrorCode.roomNotFound.toU16 ∨ errorCode > ErrorCode.resumeFailed.toU16 then
        none
      else
        return ()
    | _ => none

/-! ### Handling frames -/

/-- A heartbeat sent at that time counts as sent while measuring. -/
def measured (gen : LoadGen) (sentTime : Time) : Bool :=
  gen.measureStartedTime ≠ 0 ∧ sentTime ≥ gen.measureStartedTime
    ∧ (gen.measureFinishedTime = 0 ∨ sentTime < gen.measureFinishedTime)

/-- The client violates the protocol. -/
def protocolFailure (gen : LoadGen) (client : Client) : Bool × LoadGen × Client :=
  (false,
    { gen with result := { gen.result with protocolErrors := gen.result.protocolErrors + 1 } },
    { client with state := .failed })

/-- The part of `recordSnapshot` that counts: the frame, the ticks that are missing since the
last snapshot and the time since then. -/
def countSnapshot (gen : LoadGen) (client : Client) (tickId : UInt64) (now : Time) : LoadGen :=
  let counted := { gen with
    result := { gen.result with snapshotFrames := gen.result.snapshotFrames + 1 } }
  if client.hasTick ∧ client.lastSnapshotTime ≥ gen.measureStartedTime then
    { counted with
      result :=
        if tickId > client.lastTickId + 1 then
          { counted.result with
            tickGaps := counted.result.tickGaps + (tickId - client.lastTickId - 1).toNat }
        else
          counted.result
      snapshotIntervalUs :=
        if now > client.lastSnapshotTime then
          gen.snapshotIntervalUs ++ [microseconds (now - client.lastSnapshotTime)]
        else
          gen.snapshotIntervalUs }
  else
    counted

def recordSnapshot (gen : LoadGen) (client : Client) (tickId : UInt64) (now : Time) :
    Bool × LoadGen × Client :=
  if client.hasTick ∧ tickId ≤ client.lastTickId then
    gen.protocolFailure client
  else
    (true,
      if gen.state = .measure then gen.countSnapshot client tickId now else gen,
      { client with
        lastTickId := tickId
        hasTick := true
        lastSnapshotTime := now
        hasSnapshot := true })

def recordHeartbeatAck (gen : LoadGen) (client : Client) (seq : UInt64) (now : Time) :
    Bool × LoadGen × Client :=
  match client.pendingHeartbeats.lookup seq with
  | none => gen.protocolFailure client
  | some heartbeat =>
    if now < heartbeat.sentTime then
      gen.protocolFailure client
    else
      let client := { client with pendingHeartbeats := client.pendingHeartbeats.erase seq }
      if gen.measured heartbeat.sentTime then
        (true,
          { gen with
            result := { gen.result with heartbeatAcks := gen.result.heartbeatAcks + 1 }
            heartbeatRttUs := gen.heartbeatRttUs ++ [microseconds (now - heartbeat.sentTime)]
            counted := gen.counted ++ [heartbeat.phase] },
          client)
      else
        (true, gen, client)

def processFrame (gen : LoadGen) (client : Client) (type : UInt16) (payload : Bytes)
    (now : Time) : Bool × LoadGen × Client :=
  match MessageType.ofU16 type with
  | some .joinOk =>
    if client.state ≠ .joining then
      gen.protocolFailure client
    else
      match readJoinOk client.roomId payload with
      | none => gen.protocolFailure client
      | some playerId =>
        (true,
          { gen with result := { gen.result with joinSuccesses := gen.result.joinSuccesses + 1 } },
          { client with
            playerId := playerId
            state := .active
            stateDeadline := 0
            nextHeartbeatTime := now + milliseconds gen.config.heartbeatIntervalMs
            nextMoveTime := now + milliseconds gen.config.moveIntervalMs })
  | some .playerJoined =>
    if client.state ≠ .active then
      gen.protocolFailure client
    else
      match readPlayerJoined client.roomId payload with
      | none => gen.protocolFailure client
      | some () => (true, gen, client)
  | some .stateSnapshot =>
    if client.state ≠ .active then
      gen.protocolFailure client
    else
      match readStateSnapshot client.roomId client.playerId gen.config.roomCapacity payload with
      | none => gen.protocolFailure client
      | some tickId => gen.recordSnapshot client tickId now
  | some .heartbeatAck =>
    if client.state ≠ .active then
      gen.protocolFailure client
    else
      match readHeartbeatAck payload with
      | none => gen.protocolFailure client
      | some seq => gen.recordHeartbeatAck client seq now
  | some .error =>
    match readError payload with
    | none => gen.protocolFailure client
    | some () =>
      (false,
        { gen with result := { gen.result with
          errorFrames := gen.result.errorFrames + 1
          joinFailures :=
            if client.state = .joining then
              gen.result.joinFailures + 1
            else
              gen.result.joinFailures } },
        { client with state := .failed })
  | _ => gen.protocolFailure client

/-! ### Queueing frames -/

def queueFrame (client : Client) (type : MessageType) (payload : Bytes) : Bool × Client :=
  match Codec.encode type.toU16 payload with
  | none => (false, client)
  | some frame => (true, { client with writeBuffer := client.writeBuffer.append frame })

/-- The name under which a client joins. -/
def playerName (index : Nat) : Bytes :=
  ("load-client-".toList ++ Nat.toDigits 10 (index + 1)).map fun c => UInt8.ofNat c.toNat

def queueJoin (client : Client) : Bool × Client :=
  if client.roomId = 0 ∨ playerName client.index = []
      ∨ (playerName client.index).length > Protocol.maxPlayerNameSize then
    (false, client)
  else
    queueFrame client .join
      (Protocol.appendU32 client.roomId ++ Protocol.appendText (playerName client.index))

def queueHeartbeat (gen : LoadGen) (client : Client) (now : Time) : Bool × LoadGen × Client :=
  if client.nextHeartbeatSeq = 0 then
    (false, gen, client)
  else
    let seq := client.nextHeartbeatSeq
    if seq ∈ client.pendingHeartbeats then
      (false, gen, client)
    else
      let pending := { client with
        pendingHeartbeats := client.pendingHeartbeats.insert seq ⟨now, gen.state⟩ }
      match queueFrame pending .heartbeat (Protocol.appendU64 seq) with
      | (false, client) =>
        (false, gen, { client with pendingHeartbeats := client.pendingHeartbeats.erase seq })
      | (true, client) =>
        (true,
          if gen.state = .measure then
            { gen with
              result := { gen.result with heartbeatFrames := gen.result.heartbeatFrames + 1 } }
          else
            gen,
          { client with nextHeartbeatSeq := seq + 1 })

def queueMove (gen : LoadGen) (client : Client) : Bool × LoadGen × Client :=
  let dy : Int32 := if client.nextMovePositive then 1 else -1
  match queueFrame client .move (Protocol.appendI32 0 ++ Protocol.appendI32 dy) with
  | (false, client) => (false, gen, client)
  | (true, client) =>
    (true,
      if gen.state = .measure then
        { gen with
          result := { gen.result with sentMoveFrames := gen.result.sentMoveFrames + 1 } }
      else
        gen,
      { client with nextMovePositive := !client.nextMovePositive })

/-! ### The socket of a client -/

/-- Send the write buffer, as far as the outcomes reach: whether there was no error. -/
def writeToClient (client : Client) : List Connection.WriteOutcome → Bool × Client
  | [] => (true, client)
  | outcome :: outcomes =>
    if client.writeBuffer.empty then
      (true, client)
    else
      match outcome with
      | .written 0 => (false, client)
      | .written n =>
        writeToClient
          { client with writeBuffer :=
              client.writeBuffer.retrieve (min n client.writeBuffer.readableBytes) }
          outcomes
      | .interrupted => writeToClient client outcomes
      | .wouldBlock => (true, client)
      | .failed => (false, client)

/-- Receive into the read buffer, as far as the outcomes reach: whether the peer has closed, none
on an error. -/
def receive (client : Client) : List Connection.ReadOutcome → Option Bool × Client
  | [] => (some false, client)
  | .received data :: outcomes =>
    if data = [] then
      (some true, client)
    else
      receive { client with readBuffer := client.readBuffer.append data } outcomes
  | .interrupted :: outcomes => receive client outcomes
  | .wouldBlock :: _ => (some false, client)
  | .failed :: _ => (none, client)

/-- `processFrame` as the callback of the codec. -/
def frameCallback (now : Time) : Codec.FrameCallback (LoadGen × Client) :=
  fun (gen, client) type payload => gen.processFrame client type payload now

def readFromClient (gen : LoadGen) (client : Client) (now : Time)
    (outcomes : List Connection.ReadOutcome) : Bool × LoadGen × Client :=
  match receive client outcomes with
  | (none, client) => (false, gen, client)
  | (some peerClosed, client) =>
    match Codec.decode (some (frameCallback now)) (gen, client) client.readBuffer with
    | (false, (gen, client), readBuffer) =>
      let client := { client with readBuffer := readBuffer }
      if client.state ≠ .failed then
        gen.protocolFailure client
      else
        (false, gen, client)
    | (true, (gen, client), readBuffer) =>
      let client := { client with readBuffer := readBuffer }
      if peerClosed then
        if !client.readBuffer.empty then
          gen.protocolFailure client
        else
          (false, gen, { client with state := .closing })
      else
        (true, gen, client)

/-- The connection of a client is there: `connected` is that the socket has no error. -/
def finishConnect (gen : LoadGen) (client : Client) (now : Time) (connected : Bool) :
    Bool × LoadGen × Client :=
  if client.state ≠ .connecting ∨ !connected then
    (false, gen, client)
  else
    let gen := { gen with result := { gen.result with
      connectionSuccesses := gen.result.connectionSuccesses + 1 } }
    let client := { client with
      state := .joining
      stateDeadline := now + milliseconds gen.config.joinTimeoutMs }
    let (success, client) := queueJoin client
    (success, gen, client)

end LoadGen

end RoomServer
