import RoomServer.Game.GameState
import RoomServer.Lib.BigEndian

/-!
# Checkpoints

The data a server saves and restarts from: its rooms with their members and games, and the
sessions of the members.  A checkpoint is plain data and need not be valid.
-/

namespace RoomServer

structure CheckpointMember where
  playerId : UInt64
  playerName : Bytes
  deriving DecidableEq, Repr

structure RoomCheckpoint where
  roomId : UInt32
  capacity : UInt64
  nextPlayerId : UInt64
  state : Roomstatemachine.States
  tickId : UInt64
  members : List CheckpointMember
  gameStates : List PlayerGameState
  deriving DecidableEq, Repr

structure SessionCheckpoint where
  token : Bytes
  roomId : UInt32
  playerId : UInt64
  deriving DecidableEq, Repr

structure ServerCheckpoint where
  generation : UInt64
  rooms : List RoomCheckpoint
  sessions : List SessionCheckpoint
  deriving DecidableEq, Repr

end RoomServer
