import RoomServer.Checkpoint.Data
import RoomServer.Game.SessionManager
import RoomServer.Lib.Format
import RoomServer.Lib.Appender

/-!
# The checkpoint codec

A checkpoint file is a header of 40 bytes and a payload: the records of the rooms and of the
sessions one after the other, with their counts and sizes in front of them.  `encode` writes a
file and `decode` reads it; both give up on invalid checkpoints and leave their output as it
was when they do.

The writers and readers below are those of the code, with its limits and its early checks.
Memory is taken to be sufficient: an allocation that fails, which the code reports as
`tooLarge`, is not modelled.
-/

namespace RoomServer

namespace CheckpointCodec

abbrev checkpointHeaderSize : Nat := 40
abbrev maxCheckpointFileSize : Nat := 64 * 1024 * 1024
abbrev maxPayloadSize : Nat := maxCheckpointFileSize - checkpointHeaderSize
abbrev checkpointVersion : UInt32 := 1
abbrev checkpointMagic : Bytes := [76, 87, 67, 80]
abbrev fnvOffsetBasis : UInt64 := 14695981039346656037
abbrev fnvPrime : UInt64 := 1099511628211
abbrev minRoomRecordSize : Nat := 37
abbrev minMemberRecordSize : Nat := 12
abbrev gameStateRecordSize : Nat := 20
abbrev minSessionRecordSize : Nat := 16
abbrev maxU32 : Nat := 4294967295

inductive States where
  | success
  | invalidCheckpoint
  | malformedData
  | unsupportedVersion
  | checksumMismatch
  | tooLarge
  deriving DecidableEq, Repr

def validSessionToken (token : Bytes) : Bool :=
  token.length == SessionManager.tokenSize && token.all SessionManager.isLowerHex

/-- The rooms have different ids, and the sessions valid and different tokens and different
players. -/
def validCheckpointKeys (checkpoint : ServerCheckpoint) : Bool :=
  decide (checkpoint.rooms.map fun room => room.roomId).Nodup
    && checkpoint.sessions.all (fun session => validSessionToken session.token)
    && decide (checkpoint.sessions.map fun session => session.token).Nodup
    && decide (checkpoint.sessions.map fun session => (session.roomId, session.playerId)).Nodup

def fitsU32 (value : Nat) : Bool := value ≤ maxU32

def roomStateToByte : Roomstatemachine.States → UInt8
  | .waiting => 0
  | .running => 1
  | .finished => 2

def byteToRoomState : UInt8 → Option Roomstatemachine.States
  | 0 => some .waiting
  | 1 => some .running
  | 2 => some .finished
  | _ => none

/-- The FNV-1a checksum. -/
def checksum (data : Bytes) : UInt64 :=
  data.foldl (fun hash byte => (hash ^^^ byte.toUInt64) * fnvPrime) fnvOffsetBasis

/-! ### Writing -/

def canAppend (data : Bytes) (size limit : Nat) : Bool :=
  size ≤ limit && data.length ≤ limit - size

def appendBytes (limit : Nat) (source : Bytes) : Appender := fun data =>
  if canAppend data source.length limit then some (data ++ source) else none

def appendU8 (limit : Nat) (value : UInt8) : Appender := fun data =>
  if canAppend data 1 limit then some (data ++ [value]) else none

def appendU32 (limit : Nat) (value : UInt32) : Appender := fun data =>
  ([24, 16, 8, 0] : List UInt32).foldlM
    (fun data shift => appendU8 limit ((value >>> shift) &&& 0xff).toUInt8 data) data

def appendU64 (limit : Nat) (value : UInt64) : Appender := fun data =>
  ([56, 48, 40, 32, 24, 16, 8, 0] : List UInt64).foldlM
    (fun data shift => appendU8 limit ((value >>> shift) &&& 0xff).toUInt8 data) data

def appendMember (member : CheckpointMember) : Appender := fun payload =>
  if !fitsU32 member.playerName.length then
    none
  else do
    let payload ← appendU64 maxPayloadSize member.playerId payload
    let payload ← appendU32 maxPayloadSize (UInt32.ofNat member.playerName.length) payload
    appendBytes maxPayloadSize member.playerName payload

def appendPlayer (player : PlayerGameState) : Appender := fun payload => do
  let payload ← appendU64 maxPayloadSize player.playerId payload
  let payload ← appendU32 maxPayloadSize player.x.toUInt32 payload
  let payload ← appendU32 maxPayloadSize player.y.toUInt32 payload
  appendU32 maxPayloadSize player.hp.toUInt32 payload

def appendRoom (room : RoomCheckpoint) : Appender := fun payload =>
  if !fitsU32 room.members.length || !fitsU32 room.gameStates.length then
    none
  else do
    let payload ← appendU32 maxPayloadSize room.roomId payload
    let payload ← appendU64 maxPayloadSize room.capacity payload
    let payload ← appendU64 maxPayloadSize room.nextPlayerId payload
    let payload ← appendU8 maxPayloadSize (roomStateToByte room.state) payload
    let payload ← appendU64 maxPayloadSize room.tickId payload
    let payload ← appendU32 maxPayloadSize (UInt32.ofNat room.members.length) payload
    let payload ← room.members.foldlM (fun payload member => appendMember member payload) payload
    let payload ← appendU32 maxPayloadSize (UInt32.ofNat room.gameStates.length) payload
    room.gameStates.foldlM (fun payload player => appendPlayer player payload) payload

def appendSession (session : SessionCheckpoint) : Appender := fun payload =>
  if !fitsU32 session.token.length then
    none
  else do
    let payload ← appendU32 maxPayloadSize (UInt32.ofNat session.token.length) payload
    let payload ← appendBytes maxPayloadSize session.token payload
    let payload ← appendU32 maxPayloadSize session.roomId payload
    appendU64 maxPayloadSize session.playerId payload

/-- The records of the rooms and the sessions. -/
def appendPayload (checkpoint : ServerCheckpoint) : Appender := fun payload => do
  let payload ← checkpoint.rooms.foldlM (fun payload room => appendRoom room payload) payload
  checkpoint.sessions.foldlM (fun payload session => appendSession session payload) payload

/-- The header and the payload. -/
def appendFile (checkpoint : ServerCheckpoint) (payload : Bytes) : Appender := fun result => do
  let result ← appendBytes maxCheckpointFileSize checkpointMagic result
  let result ← appendU32 maxCheckpointFileSize checkpointVersion result
  let result ← appendU64 maxCheckpointFileSize checkpoint.generation result
  let result ← appendU32 maxCheckpointFileSize (UInt32.ofNat checkpoint.rooms.length) result
  let result ← appendU32 maxCheckpointFileSize (UInt32.ofNat checkpoint.sessions.length) result
  let result ← appendU64 maxCheckpointFileSize (UInt64.ofNat payload.length) result
  let result ← appendU64 maxCheckpointFileSize (checksum payload) result
  appendBytes maxCheckpointFileSize payload result

/-- Write a checkpoint; `data` is the output and keeps its value on a failure. -/
def encode (checkpoint : ServerCheckpoint) (data : Bytes) : States × Bytes :=
  if checkpoint.generation = 0 then
    (.invalidCheckpoint, data)
  else if !fitsU32 checkpoint.rooms.length || !fitsU32 checkpoint.sessions.length then
    (.tooLarge, data)
  else if !validCheckpointKeys checkpoint then
    (.invalidCheckpoint, data)
  else
    match appendPayload checkpoint [] with
    | none => (.tooLarge, data)
    | some payload =>
      match appendFile checkpoint payload [] with
      | none => (.tooLarge, data)
      | some result => (.success, result)

/-! ### Reading -/

def readU8 : Reader UInt8
  | [] => none
  | byte :: data => some (byte, data)

def readU32 : Reader UInt32 := fun data =>
  if data.length < 4 then
    none
  else
    some ((data.take 4).foldl (fun value byte => value <<< 8 ||| byte.toUInt32) 0, data.drop 4)

def readU64 : Reader UInt64 := fun data =>
  if data.length < 8 then
    none
  else
    some ((data.take 8).foldl (fun value byte => value <<< 8 ||| byte.toUInt64) 0, data.drop 8)

def readString (size : UInt32) : Reader Bytes := fun data =>
  if data.length < size.toNat then none else some (data.take size.toNat, data.drop size.toNat)

def readMember : Reader CheckpointMember := fun data => do
  let (playerId, data) ← readU64 data
  let (nameSize, data) ← readU32 data
  let (playerName, data) ← readString nameSize data
  return (⟨playerId, playerName⟩, data)

def readPlayer : Reader PlayerGameState := fun data => do
  let (playerId, data) ← readU64 data
  let (xBits, data) ← readU32 data
  let (yBits, data) ← readU32 data
  let (hpBits, data) ← readU32 data
  return (⟨playerId, xBits.toInt32, yBits.toInt32, hpBits.toInt32⟩, data)

/-- The members of a room behind their count, and before the count of the game states. -/
def readMembers (memberCount : UInt32) : Reader (List CheckpointMember) := fun data =>
  if data.length < 4 then
    none
  else if memberCount.toNat > (data.length - 4) / minMemberRecordSize then
    none
  else
    Format.takeMany readMember memberCount.toNat data

def readPlayers (gameStateCount : UInt32) : Reader (List PlayerGameState) := fun data =>
  if gameStateCount.toNat > data.length / gameStateRecordSize then
    none
  else
    Format.takeMany readPlayer gameStateCount.toNat data

def readRoom : Reader RoomCheckpoint := fun data => do
  let (roomId, data) ← readU32 data
  let (capacity, data) ← readU64 data
  let (nextPlayerId, data) ← readU64 data
  let (stateValue, data) ← readU8 data
  let (tickId, data) ← readU64 data
  let (memberCount, data) ← readU32 data
  let state ← byteToRoomState stateValue
  let (members, data) ← readMembers memberCount data
  let (gameStateCount, data) ← readU32 data
  let (gameStates, data) ← readPlayers gameStateCount data
  return (⟨roomId, capacity, nextPlayerId, state, tickId, members, gameStates⟩, data)

def readSession : Reader SessionCheckpoint := fun data => do
  let (tokenSize, data) ← readU32 data
  let (token, data) ← readString tokenSize data
  let (roomId, data) ← readU32 data
  let (playerId, data) ← readU64 data
  return (⟨token, roomId, playerId⟩, data)

def readRooms (roomCount : UInt32) : Reader (List RoomCheckpoint) := fun data =>
  if roomCount.toNat > data.length / minRoomRecordSize then
    none
  else
    Format.takeMany readRoom roomCount.toNat data

def readSessions (sessionCount : UInt32) : Reader (List SessionCheckpoint) := fun data =>
  if sessionCount.toNat > data.length / minSessionRecordSize then
    none
  else
    Format.takeMany readSession sessionCount.toNat data

structure Header where
  version : UInt32
  generation : UInt64
  roomCount : UInt32
  sessionCount : UInt32
  payloadSize : UInt64
  storedChecksum : UInt64

/-- The header behind the magic number. -/
def readHeader : Reader Header := fun data => do
  let (version, data) ← readU32 data
  let (generation, data) ← readU64 data
  let (roomCount, data) ← readU32 data
  let (sessionCount, data) ← readU32 data
  let (payloadSize, data) ← readU64 data
  let (storedChecksum, data) ← readU64 data
  return (⟨version, generation, roomCount, sessionCount, payloadSize, storedChecksum⟩, data)

/-- The rooms and the sessions of a payload. -/
def readPayload (header : Header) : Reader ServerCheckpoint := fun data => do
  let (rooms, data) ← readRooms header.roomCount data
  let (sessions, data) ← readSessions header.sessionCount data
  return (⟨header.generation, rooms, sessions⟩, data)

/-- Read a checkpoint, or say why it cannot be read. -/
def decodeFile (data : Bytes) : Except States ServerCheckpoint :=
  if data.length > maxCheckpointFileSize then
    .error .tooLarge
  else if data.length < checkpointHeaderSize then
    .error .malformedData
  else if data.take checkpointMagic.length ≠ checkpointMagic then
    .error .malformedData
  else
    match readHeader ((data.take checkpointHeaderSize).drop checkpointMagic.length) with
    | none => .error .malformedData
    | some (header, rest) =>
      if rest ≠ [] then
        .error .malformedData
      else if header.version ≠ checkpointVersion then
        .error .unsupportedVersion
      else if header.generation = 0 then
        .error .invalidCheckpoint
      else if header.payloadSize ≠ UInt64.ofNat (data.length - checkpointHeaderSize) then
        .error .malformedData
      else if header.storedChecksum ≠ checksum (data.drop checkpointHeaderSize) then
        .error .checksumMismatch
      else
        match readPayload header (data.drop checkpointHeaderSize) with
        | none => .error .malformedData
        | some (temp, rest) =>
          if rest ≠ [] then
            .error .malformedData
          else if !validCheckpointKeys temp then
            .error .invalidCheckpoint
          else
            .ok temp

/-- Read a checkpoint; `checkpoint` is the output and keeps its value on a failure. -/
def decode (data : Bytes) (checkpoint : ServerCheckpoint) : States × ServerCheckpoint :=
  match decodeFile data with
  | .ok temp => (.success, temp)
  | .error state => (state, checkpoint)

end CheckpointCodec

end RoomServer
