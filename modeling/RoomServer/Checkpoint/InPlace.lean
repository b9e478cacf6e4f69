import RoomServer.Checkpoint.Restart

/-!
# Restoring in place

The components are restored by member functions that return whether they succeeded: they fill
local tables, return early from wherever a check fails, and write to the object at the end.
Here these functions are given with the object and the local tables as they are at every exit.
They compute the functions of the same names without `InPlace`, which have no result when a
check fails.

What a restore that succeeds takes over is the list of checkpoints in its canonical order,
`RoomCheckpoint.canonical` for the members and players of a room.
-/

namespace RoomServer

/-! ### In place -/

namespace Gamestate

/-- The loop of `restore`: whether it went through, and the players it has placed. -/
def fillPlayers : List PlayerGameState → UnorderedMap UInt64 PlayerGameState →
    Bool × UnorderedMap UInt64 PlayerGameState
  | [], tempPlayers => (true, tempPlayers)
  | state :: states, tempPlayers =>
    if state.playerId = 0 then
      (false, tempPlayers)
    else if state.playerId ∈ tempPlayers then
      (false, tempPlayers)
    else if state.x < minPosition ∨ state.x > maxPosition ∨ state.y < minPosition
        ∨ state.y > maxPosition then
      (false, tempPlayers)
    else if state.hp < 0 ∨ state.hp > initialHp then
      (false, tempPlayers)
    else
      fillPlayers states (tempPlayers.emplace state.playerId state)

def restoreInPlace (game : Gamestate) (states : List PlayerGameState) : Bool × Gamestate :=
  if states.length > maxPlayers then
    (false, game)
  else
    match fillPlayers states ∅ with
    | (false, _) => (false, game)
    | (true, tempPlayers) => (true, { game with players := tempPlayers })

end Gamestate

namespace Room

/-- The loop of `restoreCheckpoint` over the members. -/
def fillMembers : List CheckpointMember → UnorderedMap UInt64 Member →
    Bool × UnorderedMap UInt64 Member
  | [], tempMembers => (true, tempMembers)
  | member :: members, tempMembers =>
    if member.playerId = 0 then
      (false, tempMembers)
    else if member.playerId ∈ tempMembers then
      (false, tempMembers)
    else if ¬Protocol.NameFits member.playerName then
      (false, tempMembers)
    else
      fillMembers members
        (tempMembers.emplace member.playerId ⟨member.playerId, member.playerName, none⟩)

/-- The `switch` of `restoreCheckpoint` over the state, on a new state machine. -/
def moveState (checkpoint : RoomCheckpoint) (tempStateMachine : Roomstatemachine) :
    Bool × Roomstatemachine :=
  match checkpoint.state with
  | .waiting =>
    if checkpoint.tickId ≠ 0 then
      (false, tempStateMachine)
    else if checkpoint.gameStates ≠ [] then
      (false, tempStateMachine)
    else
      (true, tempStateMachine)
  | .running =>
    let (started, tempStateMachine) := tempStateMachine.start true
    if started ≠ .success then (false, tempStateMachine) else (true, tempStateMachine)
  | .finished =>
    let (started, tempStateMachine) := tempStateMachine.start true
    if started ≠ .success then
      (false, tempStateMachine)
    else
      let (finished, tempStateMachine) := tempStateMachine.finish true
      if finished ≠ .success then (false, tempStateMachine) else (true, tempStateMachine)

def restoreCheckpointInPlace (room : Room) (checkpoint : RoomCheckpoint) : Bool × Room :=
  if checkpoint.roomId ≠ room.roomId then
    (false, room)
  else if checkpoint.capacity ≠ room.capacity then
    (false, room)
  else if checkpoint.members.length > room.capacity.toNat then
    (false, room)
  else
    match fillMembers checkpoint.members ∅ with
    | (false, _) => (false, room)
    | (true, tempMembers) =>
      if checkpoint.nextPlayerId ≠ 0 ∧
          ∃ entry ∈ tempMembers.entries, checkpoint.nextPlayerId ≤ entry.1 then
        (false, room)
      else
        match moveState checkpoint .new with
        | (false, _) => (false, room)
        | (true, tempStateMachine) =>
          if (checkpoint.state = .running ∨ checkpoint.state = .finished) ∧
              (checkpoint.gameStates.length ≠ tempMembers.size ∨
                ∃ state ∈ checkpoint.gameStates, state.playerId ∉ tempMembers) then
            (false, room)
          else
            match Gamestate.new.restoreInPlace checkpoint.gameStates with
            | (false, _) => (false, room)
            | (true, tempGameState) =>
              let room := { room with members := tempMembers }
              let room := { room with gameState := tempGameState }
              let room := { room with stateMachine := tempStateMachine }
              let room := { room with nextPlayerId := checkpoint.nextPlayerId }
              let room := { room with tickId := checkpoint.tickId }
              (true, { room with pendingCommands := [] })

end Room

namespace RoomManager

/-- The loop of `restoreCheckpoint`: every room is made and restored. -/
def fillRooms : List RoomCheckpoint → UnorderedMap UInt32 Room → Bool × UnorderedMap UInt32 Room
  | [], tempRooms => (true, tempRooms)
  | checkpoint :: checkpoints, tempRooms =>
    if checkpoint.capacity > 0xffffffffffffffff then
      (false, tempRooms)
    else if checkpoint.roomId ∈ tempRooms then
      (false, tempRooms)
    else
      match (Room.new checkpoint.roomId checkpoint.capacity).restoreCheckpointInPlace
          checkpoint with
      | (false, _) => (false, tempRooms)
      | (true, room) => fillRooms checkpoints (tempRooms.emplace checkpoint.roomId room)

def restoreCheckpointInPlace (manager : RoomManager) (checkpoints : List RoomCheckpoint) :
    Bool × RoomManager :=
  match fillRooms checkpoints ∅ with
  | (false, _) => (false, manager)
  | (true, tempRooms) => (true, { manager with rooms := tempRooms })

end RoomManager

namespace SessionManager

/-- The loop of `restoreCheckpoint`. -/
def fillSessions (deadline : Int) : List SessionCheckpoint → UnorderedMap Bytes Session →
    Bool × UnorderedMap Bytes Session
  | [], tempSessions => (true, tempSessions)
  | checkpoint :: checkpoints, tempSessions =>
    if checkpoint.token.length ≠ tokenSize then
      (false, tempSessions)
    else if !checkpoint.token.all isLowerHex then
      (false, tempSessions)
    else if checkpoint.token ∈ tempSessions then
      (false, tempSessions)
    else if ∃ session ∈ tempSessions.values,
        session.roomId = checkpoint.roomId ∧ session.playerId = checkpoint.playerId then
      (false, tempSessions)
    else
      fillSessions deadline checkpoints
        (tempSessions.emplace checkpoint.token
          (.newOffline checkpoint.roomId checkpoint.playerId deadline))

def restoreCheckpointInPlace (manager : SessionManager) (checkpoints : List SessionCheckpoint)
    (now : Int) : Bool × SessionManager :=
  match fillSessions (now + manager.reconnectTimeout) checkpoints ∅ with
  | (false, _) => (false, manager)
  | (true, tempSessions) =>
    let manager := { manager with sessions := tempSessions }
    (true, { manager with bindings := ∅ })

end SessionManager

/-! ### What is computed -/

namespace Gamestate

/-- The loop goes through when every player can be entered. -/
theorem fillPlayers_eq_true_iff {states : List PlayerGameState}
    {players players' : UnorderedMap UInt64 PlayerGameState} :
  fillPlayers states players = (true, players')
    ↔ AList.enter (fun state => state.playerId) restorePlayer states players = some players'
  := by
  induction states generalizing players with
  | nil => simp [fillPlayers, AList.enter]
  | cons state states ih =>
    rw [fillPlayers, AList.enter, restorePlayer]
    by_cases hid : state.playerId = 0
    · simp [hid]
    by_cases hmem : state.playerId ∈ players
    · simp [hid, hmem]
    by_cases hposition : state.x < minPosition ∨ state.x > maxPosition ∨ state.y < minPosition
        ∨ state.y > maxPosition
    · simp [hid, hmem, hposition]
    by_cases hhp : state.hp < 0 ∨ state.hp > initialHp
    · simp [hid, hmem, hposition, hhp]
    simp only [hid, hmem, hposition, hhp, if_false, ih]

/-- What was in the game before does not matter. -/
theorem restoreInPlace_eq_true_iff {game game' : Gamestate} {states : List PlayerGameState} :
  game.restoreInPlace states = (true, game') ↔ Gamestate.restore states = some game'
  := by
  rw [restoreInPlace, restore]
  split
  · simp
  rw [Option.map_eq_some_iff]
  simp only [← fillPlayers_eq_true_iff]
  split
  · next hfill => simp [hfill]
  · next hfill => simp [hfill]

end Gamestate

namespace Room

variable {room room' : Room} {checkpoint : RoomCheckpoint}

/-- The loop goes through when every member can be entered. -/
theorem fillMembers_eq_true_iff {checkpoints : List CheckpointMember}
    {members members' : UnorderedMap UInt64 Member} :
  fillMembers checkpoints members = (true, members')
    ↔ AList.enter (fun member => member.playerId) restoreMember checkpoints members
      = some members'
  := by
  induction checkpoints generalizing members with
  | nil => simp [fillMembers, AList.enter]
  | cons member checkpoints ih =>
    rw [fillMembers, AList.enter, restoreMember]
    by_cases hid : member.playerId = 0
    · simp [hid]
    by_cases hmem : member.playerId ∈ members
    · simp [hid, hmem]
    by_cases hname : Protocol.NameFits member.playerName
    · simp only [hid, hmem, hname, not_true_eq_false, if_false, ih]
    · simp [hid, hmem, hname]

/-- A new state machine is moved to any state a checkpoint may name. -/
theorem moveState_eq_true_iff {machine : Roomstatemachine} :
  moveState checkpoint .new = (true, machine) ↔ restoreState checkpoint = some machine
  := by
  rw [moveState, restoreState]
  cases checkpoint.state with
  | waiting =>
    dsimp only
    split
    · simp
    split
    · simp
    · simp
  | running => simp [Roomstatemachine.start, Roomstatemachine.new]
  | finished =>
    simp [Roomstatemachine.start, Roomstatemachine.finish, Roomstatemachine.new]

/-- The room is restored when the checks go through, to what they have computed. -/
theorem restoreCheckpointInPlace_eq_true_iff :
  room.restoreCheckpointInPlace checkpoint = (true, room')
    ↔ room.restoreCheckpoint checkpoint = some room'
  := by
  rw [restoreCheckpointInPlace, restoreCheckpoint]
  split
  · simp
  split
  · simp
  split
  · simp
  simp only [Option.bind_eq_bind, Option.bind_eq_some_iff, ← fillMembers_eq_true_iff]
  cases hfill : fillMembers checkpoint.members ∅ with
  | mk filled tempMembers =>
  cases filled with
  | false => simp
  | true =>
  simp only [Prod.mk.injEq, true_and, exists_eq_left']
  split
  · simp
  simp only [Option.bind_eq_some_iff, ← moveState_eq_true_iff]
  cases hmove : moveState checkpoint .new with
  | mk moved tempStateMachine =>
  cases moved with
  | false => simp
  | true =>
  simp only [Prod.mk.injEq, true_and, exists_eq_left']
  split
  · simp
  have hgame : ∀ game', Gamestate.restore checkpoint.gameStates = some game'
      ↔ Gamestate.new.restoreInPlace checkpoint.gameStates = (true, game') :=
    fun _ => Gamestate.restoreInPlace_eq_true_iff.symm
  simp only [Option.bind_eq_some_iff, hgame]
  cases hrestore : Gamestate.new.restoreInPlace checkpoint.gameStates with
  | mk restored tempGameState =>
  cases restored with
  | false => simp
  | true => simp

end Room

namespace RoomManager

variable {manager manager' : RoomManager} {checkpoints : List RoomCheckpoint}

/-- The loop goes through when every room can be made, restored and entered. -/
theorem fillRooms_eq_true_iff {rooms rooms' : UnorderedMap UInt32 Room} :
  fillRooms checkpoints rooms = (true, rooms')
    ↔ AList.enter (fun checkpoint => checkpoint.roomId) restoreRoom checkpoints rooms
      = some rooms'
  := by
  induction checkpoints generalizing rooms with
  | nil => simp [fillRooms, AList.enter]
  | cons checkpoint checkpoints ih =>
    rw [fillRooms, AList.enter, restoreRoom]
    by_cases hcapacity : checkpoint.capacity > 0xffffffffffffffff
    · simp [hcapacity]
    by_cases hmem : checkpoint.roomId ∈ rooms
    · simp [hcapacity, hmem]
    simp only [hcapacity, hmem, if_false]
    cases hroom : (Room.new checkpoint.roomId checkpoint.capacity).restoreCheckpoint
        checkpoint with
    | none =>
      split
      · simp
      · next room hrestore =>
        rw [Room.restoreCheckpointInPlace_eq_true_iff, hroom] at hrestore
        cases hrestore
    | some room =>
      rw [Room.restoreCheckpointInPlace_eq_true_iff.mpr hroom]
      exact ih

/-- The rooms that were there before do not matter. -/
theorem restoreCheckpointInPlace_eq_true_iff :
  manager.restoreCheckpointInPlace checkpoints = (true, manager')
    ↔ restoreCheckpoint checkpoints = some manager'
  := by
  rw [restoreCheckpointInPlace, restoreCheckpoint, Option.map_eq_some_iff]
  simp only [← fillRooms_eq_true_iff]
  split
  · next hfill => simp [hfill]
  · next hfill => simp [hfill]

end RoomManager

namespace SessionManager

variable {manager manager' : SessionManager} {checkpoints : List SessionCheckpoint} {now : Int}

/-- The loop goes through when every session can be entered. -/
theorem fillSessions_eq_true_iff {deadline : Int}
    {sessions sessions' : UnorderedMap Bytes Session} :
  fillSessions deadline checkpoints sessions = (true, sessions')
    ↔ restoreSessions deadline checkpoints sessions = some sessions'
  := by
  induction checkpoints generalizing sessions with
  | nil => simp [fillSessions, restoreSessions]
  | cons checkpoint checkpoints ih =>
    rw [fillSessions, restoreSessions]
    split
    · simp
    split
    · simp
    split
    · simp
    split
    · simp
    exact ih

/-- The sessions that were there before do not matter, only the timeout does. -/
theorem restoreCheckpointInPlace_eq_true_iff :
  manager.restoreCheckpointInPlace checkpoints now = (true, manager')
    ↔ manager.restoreCheckpoint checkpoints now = some manager'
  := by
  rw [restoreCheckpointInPlace, restoreCheckpoint, Option.bind_eq_bind, Option.bind_eq_some_iff]
  simp only [← fillSessions_eq_true_iff]
  split
  · next hfill => simp [hfill]
  · next hfill => simp [hfill]

end SessionManager

/-! ### Exactness -/

/-- The room is that of the checkpoint, without connections and commands. -/
structure Room.Fresh (room : Room) (checkpoint : RoomCheckpoint) : Prop where
  makeCheckpoint : room.makeCheckpoint = some checkpoint.canonical
  pendingCommands : room.pendingCommands = []
  connections : ∀ p member, room.members.lookup p = some member → member.connection = none

/-- The rooms are the ones of the checkpoints, without connections and commands. -/
structure RoomManager.Fresh (manager : RoomManager) (checkpoints : List RoomCheckpoint) : Prop where
  makeCheckpoint : manager.makeCheckpoint = some (canonical checkpoints)
  rooms : ∀ r room, manager.rooms.lookup r = some room →
    ∃ checkpoint ∈ checkpoints, checkpoint.roomId = r ∧ room.Fresh checkpoint

/-- The sessions are the ones of the checkpoints, offline until the deadline. -/
structure SessionManager.Fresh (manager : SessionManager) (checkpoints : List SessionCheckpoint)
    (deadline : Int) : Prop where
  makeCheckpoint : manager.makeCheckpoint = some (canonical checkpoints)
  bindings : manager.bindings = ∅
  sessions : ∀ t session, manager.sessions.lookup t = some session →
    session.state = .offline ∧ session.connection = none ∧ session.offlineDeadline = deadline
      ∧ ∀ time, session.expired time = true ↔ deadline ≤ time

/-- The session of this player. -/
def online : SessionManager where
  reconnectTimeout := 5000
  sessions := (∅ : UnorderedMap Bytes Session).insert [67] (.newOnline 9 1 (some 7))
  bindings := (∅ : UnorderedMap ConnId Bytes).insert 7 [67]

end RoomServer
