import RoomServer.Game.Room

/-!
# The table of rooms

`RoomManager` keeps the rooms by their ids, hands requests to the room they name, and lists
the connections that are to be told about the outcome.

A table of rooms is `Valid` when every room is kept under its id and is valid.  `member r p`
is the member `p` of the room `r`, if there is one; on a valid table every operation is
determined by the members, and changes one of them.
-/

namespace RoomServer

namespace RoomManager

inductive States where
  | success
  | invalidConnection
  | roomNotFound
  | roomFull
  | roomNotJoinable
  | notInRoom
  | invalidPlayerName
  | invalidMessage
  | playerIdExhausted
  | roomNotRunning
  | alreadySubmitted
  | internalError
  deriving DecidableEq, Repr

inductive Bindingstates where
  | success
  | invalidConnection
  | roomNotFound
  | playerNotFound
  | alreadyBound
  | notBound
  | connectionMismatch
  | internalError
  deriving DecidableEq, Repr

structure JoinResult where
  state : States := .internalError
  roomId : UInt32 := 0
  playerId : UInt64 := 0
  members : List MemberInfo := []
  notifyConnections : List ConnectionPtr := []

structure LeaveResult where
  state : States := .internalError
  roomId : UInt32 := 0
  playerId : UInt64 := 0
  notifyConnections : List ConnectionPtr := []

structure ChatResult where
  state : States := .internalError
  roomId : UInt32 := 0
  playerId : UInt64 := 0
  notifyConnections : List ConnectionPtr := []

structure CommandResult where
  state : States := .internalError
  roomId : UInt32 := 0
  playerId : UInt64 := 0

structure BindingResult where
  state : Bindingstates := .internalError
  roomId : UInt32 := 0
  playerId : UInt64 := 0
  roomState : Roomstatemachine.States := .waiting
  tickId : UInt64 := 0
  members : List MemberInfo := []
  snapshot : List PlayerGameState := []

structure DetachResult where
  state : Bindingstates := .internalError
  roomId : UInt32 := 0
  playerId : UInt64 := 0

structure TickResult where
  roomId : UInt32
  tickId : UInt64
  processedCommands : Nat
  successfulCommands : Nat
  snapshot : List PlayerGameState
  notifyConnections : List ConnectionPtr

end RoomManager

structure RoomManager where
  rooms : UnorderedMap UInt32 Room

namespace RoomManager

def new : RoomManager := ⟨∅⟩

def containsRoom (manager : RoomManager) (roomId : UInt32) : Bool :=
  decide (roomId ∈ manager.rooms)

/-- The table with one of its rooms replaced. -/
def setRoom (manager : RoomManager) (roomId : UInt32) (room : Room) : RoomManager :=
  ⟨manager.rooms.assign roomId room⟩

def addRoom (manager : RoomManager) (roomId : UInt32) (capacity : UInt64) : Bool × RoomManager :=
  if manager.containsRoom roomId then
    (false, manager)
  else
    (true, ⟨manager.rooms.insert roomId (Room.new roomId capacity)⟩)

def joinState : Room.Joinstates → States
  | .success => .success
  | .invalidConnection => .invalidConnection
  | .roomFull => .roomFull
  | .invalidState => .roomNotJoinable
  | .invalidPlayerName => .invalidPlayerName
  | .playerIdExhausted => .playerIdExhausted

def join (manager : RoomManager) (connection : ConnectionPtr) (roomId : UInt32)
    (playerName : Bytes) : JoinResult × RoomManager :=
  if connection.isNone then
    ({ state := .invalidConnection }, manager)
  else
    match manager.rooms.lookup roomId with
    | none => ({ state := .roomNotFound }, manager)
    | some room =>
      let (roomResult, room) := room.join connection playerName
      match roomResult.state with
      | .success =>
        ({ state := .success
           roomId := roomId
           playerId := roomResult.playerId
           members := roomResult.members
           notifyConnections := room.connections roomResult.playerId },
          manager.setRoom roomId room)
      | state => ({ state := joinState state }, manager.setRoom roomId room)

/-- Start the room once its last place is taken. -/
def startIfFull (manager : RoomManager) (roomId : UInt32) : States × RoomManager :=
  match manager.rooms.lookup roomId with
  | none => (.roomNotFound, manager)
  | some room =>
    if room.memberCount < room.capacity.toNat then
      (.success, manager)
    else if room.memberCount > room.capacity.toNat then
      (.internalError, manager)
    else
      let (transitionState, room) := room.start true
      match transitionState with
      | .success => (.success, manager.setRoom roomId room)
      | .invalidState => (.roomNotJoinable, manager.setRoom roomId room)
      | .conditionNotMet => (.internalError, manager.setRoom roomId room)

def leave (manager : RoomManager) (roomId : UInt32) (playerId : UInt64) :
    LeaveResult × RoomManager :=
  match manager.rooms.lookup roomId with
  | none => ({ state := .roomNotFound }, manager)
  | some room =>
    if !room.contains playerId then
      ({ state := .notInRoom }, manager)
    else
      let (left, room) := room.leave playerId
      if !left then
        ({ state := .internalError }, manager.setRoom roomId room)
      else
        ({ state := .success
           roomId := roomId
           playerId := playerId
           notifyConnections := room.connections 0 },
          manager.setRoom roomId room)

def chat (manager : RoomManager) (roomId : UInt32) (playerId : UInt64) (message : Bytes) :
    ChatResult :=
  if message = [] ∨ message.length > Protocol.maxChatMessageSize then
    { state := .invalidMessage }
  else
    match manager.rooms.lookup roomId with
    | none => { state := .roomNotFound }
    | some room =>
      if !room.contains playerId then
        { state := .notInRoom }
      else
        { state := .success
          roomId := roomId
          playerId := playerId
          notifyConnections := room.connections 0 }

def commandState : Room.Commandstates → States
  | .success => .success
  | .invalidState => .roomNotRunning
  | .alreadySubmitted => .alreadySubmitted
  | .playerNotFound => .internalError

/-- Let the room submit a command of one of its members. -/
def command (manager : RoomManager) (roomId : UInt32) (playerId : UInt64)
    (submit : Room → Room.Commandstates × Room) : CommandResult × RoomManager :=
  match manager.rooms.lookup roomId with
  | none => ({ state := .roomNotFound }, manager)
  | some room =>
    if !room.contains playerId then
      ({ state := .notInRoom }, manager)
    else
      let (state, room) := submit room
      match state with
      | .success =>
        ({ state := .success, roomId := roomId, playerId := playerId },
          manager.setRoom roomId room)
      | state => ({ state := commandState state }, manager.setRoom roomId room)

def move (manager : RoomManager) (roomId : UInt32) (playerId : UInt64) (dx dy : Int32) :
    CommandResult × RoomManager :=
  manager.command roomId playerId fun room => room.submitMove playerId dx dy

def attack (manager : RoomManager) (roomId : UInt32) (playerId targetPlayerId : UInt64) :
    CommandResult × RoomManager :=
  manager.command roomId playerId fun room => room.submitAttack playerId targetPlayerId

/-- What there is to tell about the tick of a room, if it runs. -/
def tickResult (room : Room) : Option TickResult :=
  if room.state ≠ .running then
    none
  else
    let (result, room) := room.tick
    if result.state ≠ .success then
      none
    else
      some ⟨room.roomId, result.tickId, result.processedCommands, result.successfulCommands,
        result.snapshot, room.connections 0⟩

def tickRoom (room : Room) : Room :=
  if room.state ≠ .running then room else room.tick.2

/-- Tick the running rooms. -/
def tickRooms (manager : RoomManager) : List TickResult × RoomManager :=
  (manager.rooms.values.filterMap tickResult, ⟨manager.rooms.mapValues tickRoom⟩)

def bindingState : Room.Bindingstates → Bindingstates
  | .success => .success
  | .invalidConnection => .invalidConnection
  | .playerNotFound => .playerNotFound
  | .alreadyBound => .alreadyBound
  | .notBound => .internalError
  | .connectionMismatch => .internalError

def bindConnection (manager : RoomManager) (roomId : UInt32) (playerId : UInt64)
    (connection : ConnectionPtr) : BindingResult × RoomManager :=
  if connection.isNone then
    ({ state := .invalidConnection }, manager)
  else
    match manager.rooms.lookup roomId with
    | none => ({ state := .roomNotFound }, manager)
    | some room =>
      let (state, room) := room.bindConnection playerId connection
      match state with
      | .success =>
        ({ state := .success
           roomId := roomId
           playerId := playerId
           roomState := room.state
           tickId := room.tickId
           members := room.memberSnapshot
           snapshot := room.gameSnapshot },
          manager.setRoom roomId room)
      | state => ({ state := bindingState state }, manager.setRoom roomId room)

def detachState : Room.Bindingstates → Bindingstates
  | .success => .success
  | .invalidConnection => .invalidConnection
  | .playerNotFound => .playerNotFound
  | .notBound => .notBound
  | .connectionMismatch => .connectionMismatch
  | .alreadyBound => .internalError

def detachConnection (manager : RoomManager) (roomId : UInt32) (playerId : UInt64)
    (connection : ConnectionPtr) : DetachResult × RoomManager :=
  if connection.isNone then
    ({ state := .invalidConnection }, manager)
  else
    match manager.rooms.lookup roomId with
    | none => ({ state := .roomNotFound }, manager)
    | some room =>
      let (state, room) := room.detachConnection playerId connection
      match state with
      | .success =>
        ({ state := .success, roomId := roomId, playerId := playerId },
          manager.setRoom roomId room)
      | state => ({ state := detachState state }, manager.setRoom roomId room)

/-- The checkpoints of the rooms in the order of their ids. -/
def makeCheckpoint (manager : RoomManager) : Option (List RoomCheckpoint) := do
  let checkpoints ← manager.rooms.values.mapM Room.makeCheckpoint
  return checkpoints.sortOn fun checkpoint => checkpoint.roomId.toNat

/-- The room of a checkpoint. -/
def restoreRoom (checkpoint : RoomCheckpoint) : Option Room :=
  if checkpoint.capacity > 0xffffffffffffffff then
    none
  else
    (Room.new checkpoint.roomId checkpoint.capacity).restoreCheckpoint checkpoint

/-- The table of the rooms of the checkpoints, if all of them are valid. -/
def restoreCheckpoint (checkpoints : List RoomCheckpoint) : Option RoomManager :=
  (AList.enter (fun checkpoint => checkpoint.roomId) restoreRoom checkpoints ∅).map RoomManager.mk

/-! ### Valid tables -/

/-- Every room is valid and kept under its id. -/
structure Valid (manager : RoomManager) : Prop where
  key : ∀ {r room}, manager.rooms.lookup r = some room → room.roomId = r
  valid : ∀ {r room}, manager.rooms.lookup r = some room → room.Valid

/-- The member `p` of the room `r`. -/
def member (manager : RoomManager) (r : UInt32) (p : UInt64) : Option Room.Member := do
  let room ← manager.rooms.lookup r
  room.members.lookup p

variable {manager : RoomManager}

theorem member_eq {r : UInt32} {room : Room} (h : manager.rooms.lookup r = some room)
    (p : UInt64) :
  manager.member r p = room.members.lookup p
  := by
  rw [member, h]
  rfl

theorem member_eq_some_iff {r : UInt32} {p : UInt64} {member : Room.Member} :
  manager.member r p = some member
    ↔ ∃ room, manager.rooms.lookup r = some room ∧ room.members.lookup p = some member
  := by
  rw [RoomManager.member, Option.bind_eq_bind, Option.bind_eq_some_iff]

theorem lookup_setRoom {r : UInt32} {room : Room} (h : manager.rooms.lookup r = some room)
    (room' : Room) (r' : UInt32) :
  (manager.setRoom r room').rooms.lookup r'
    = if r' = r then some room' else manager.rooms.lookup r'
  := AList.lookup_assign_of_mem (AList.mem_iff_lookup.mpr ⟨room, h⟩) room' r'

/-- Replacing a room changes the members of this room only. -/
theorem member_setRoom {r : UInt32} {room : Room} (h : manager.rooms.lookup r = some room)
    (room' : Room) (r' : UInt32) (p : UInt64) :
  (manager.setRoom r room').member r' p
    = if r' = r then room'.members.lookup p else manager.member r' p
  := by
  rw [member, lookup_setRoom h]
  split
  · rfl
  · rfl

theorem setRoom_lookup {r : UInt32} {room : Room} (h : manager.rooms.lookup r = some room) :
  manager.setRoom r room = manager
  := by
  rw [setRoom, AList.assign_lookup h]

theorem setRoom_setRoom (r : UInt32) (room room' : Room) :
  (manager.setRoom r room).setRoom r room' = manager.setRoom r room'
  := by
  simp only [setRoom, AList.assign_assign]

theorem Valid.setRoom (h : manager.Valid) {r : UInt32} {room room' : Room}
    (hr : manager.rooms.lookup r = some room) (hkey : room'.roomId = r) (hvalid : room'.Valid) :
  (manager.setRoom r room').Valid
  := by
  constructor
  · intro r' room'' h'
    rw [lookup_setRoom hr] at h'
    split at h'
    · next heq =>
      cases h'
      rw [hkey, heq]
    · apply h.key h'
  · intro r' room'' h'
    rw [lookup_setRoom hr] at h'
    split at h'
    · cases h'
      exact hvalid
    · apply h.valid h'

/-! ### What the operations do -/

/-- `join` does nothing about a player the room does not admit, and enrols one it does. -/
theorem join_cases (h : manager.Valid) (connection : ConnectionPtr) (r : UInt32)
    (playerName : Bytes) :
  ((manager.join connection r playerName).1.state ≠ .success
      ∧ (manager.join connection r playerName).2 = manager
      ∧ (connection ≠ none →
        (∀ room, manager.rooms.lookup r = some room → ¬room.Admits playerName)
        ∧ (manager.join connection r playerName).1.state ≠ .invalidConnection
        ∧ (manager.join connection r playerName).1.state ≠ .internalError))
    ∨ ∃ room, manager.rooms.lookup r = some room ∧ connection ≠ none ∧ room.Admits playerName
      ∧ manager.join connection r playerName
        = (⟨.success, r, room.nextPlayerId, room.members.values.map Room.Member.info,
            (room.enrol playerName connection).connections room.nextPlayerId⟩,
          manager.setRoom r (room.enrol playerName connection))
  := by
  rw [join]
  split
  · next hnone =>
    left
    refine ⟨by simp, rfl, fun hne => ?_⟩
    simp [hne] at hnone
  cases hroom : manager.rooms.lookup r with
  | none => exact .inl ⟨by simp, rfl, fun _ => by simp⟩
  | some room =>
    obtain ⟨hstate, hsame, hrefused⟩ | ⟨hconn, hadmits, heq⟩ :=
      Room.join_cases (h.valid hroom) connection playerName
    · left
      rcases hjoin : room.join connection playerName with ⟨result, room'⟩
      rw [hjoin] at hstate hsame hrefused
      dsimp only at hstate hsame hrefused ⊢
      rw [hjoin, hsame, setRoom_lookup hroom]
      cases hs : result.state <;> simp_all [joinState]
    · right
      use room, rfl, hconn, hadmits
      dsimp only
      rw [heq]

/-- `startIfFull` lets a room with places left wait, and starts a full one that is not too
large for a game. -/
theorem startIfFull_cases (h : manager.Valid) {r : UInt32} {room : Room}
    (hroom : manager.rooms.lookup r = some room) (hwaiting : room.stateMachine.state = .waiting)
    (hne : room.members.size ≠ 0) :
  (room.members.size < room.capacity.toNat ∧ manager.startIfFull r = (.success, manager))
    ∨ room.members.size = room.capacity.toNat
      ∧ ((room.capacity.toNat ≤ Gamestate.maxPlayers ∧ (room.start true).1 = .success
          ∧ manager.startIfFull r = (.success, manager.setRoom r room.started))
        ∨ Gamestate.maxPlayers < room.capacity.toNat
          ∧ manager.startIfFull r = (.internalError, manager))
  := by
  have hsize := (h.valid hroom).size_le
  have hstart := Room.start_success_iff (h.valid hroom) hwaiting hne
  rw [startIfFull, hroom]
  have hcount : room.memberCount = room.members.size := rfl
  dsimp only
  rw [hcount]
  by_cases hlt : room.members.size < room.capacity.toNat
  · rw [if_pos hlt]
    exact .inl ⟨hlt, rfl⟩
  right
  have hfull : room.members.size = room.capacity.toNat := by omega
  use hfull
  rw [if_neg hlt, if_neg (by omega)]
  rw [hfull] at hstart
  by_cases hmax : room.capacity.toNat ≤ Gamestate.maxPlayers
  · left
    have hsuccess := hstart.mpr hmax
    use hmax, hsuccess
    rw [hsuccess]
    rfl
  · right
    use by omega
    have hfail : (room.start true).1 ≠ .success := fun hsuccess => hmax (hstart.mp hsuccess)
    rw [room.start_of_failure true hfail, setRoom_lookup hroom]
    cases htransition : (room.start true).1 with
    | success => exact absurd htransition hfail
    | invalidState =>
      rw [Room.start, if_neg (not_not.mpr hwaiting)] at htransition
      split at htransition
      · cases htransition
      dsimp only at htransition
      split at htransition <;> cases htransition
    | conditionNotMet => rfl

/-- `leave` removes a member. -/
theorem leave_of_member (h : manager.Valid) {r : UInt32} {room : Room}
    (hroom : manager.rooms.lookup r = some room) {p : UInt64} (hmem : p ∈ room.members) :
  manager.leave r p
    = (⟨.success, r, p, (room.dismiss p).connections 0⟩, manager.setRoom r (room.dismiss p))
  := by
  rw [leave, hroom]
  simp [Room.contains, hmem, Room.leave_of_mem (h.valid hroom) hmem]

/-- `bindConnection` seats a member without a connection. -/
theorem bindConnection_of_offline (h : manager.Valid) {r : UInt32} {room : Room}
    (hroom : manager.rooms.lookup r = some room) {p : UInt64} {member : Room.Member}
    (hmember : room.members.lookup p = some member) (hoffline : member.connection = none)
    (c : ConnId) :
  manager.bindConnection r p (some c)
    = (⟨.success, r, p, room.stateMachine.state, room.tickId,
        (room.seat member (some c)).memberSnapshot, room.gameState.snapshot⟩,
      manager.setRoom r (room.seat member (some c)))
  := by
  rw [bindConnection, hroom]
  simp only [Option.isNone_some, Bool.false_eq_true, if_false,
    Room.bindConnection_of_offline (h.valid hroom) hmember hoffline]
  rfl

/-- `detachConnection` takes the connection from the member that has it. -/
theorem detachConnection_of_bound (h : manager.Valid) {r : UInt32} {room : Room}
    (hroom : manager.rooms.lookup r = some room) {p : UInt64} {member : Room.Member}
    (hmember : room.members.lookup p = some member) {c : ConnId}
    (hbound : member.connection = some c) :
  manager.detachConnection r p (some c)
    = (⟨.success, r, p⟩, manager.setRoom r (room.seat member none))
  := by
  rw [detachConnection, hroom]
  simp only [Option.isNone_some, Bool.false_eq_true, if_false,
    Room.detachConnection_of_bound (h.valid hroom) hmember hbound]

/-- A command of a member is refused for a reason there is an error for, or it is collected. -/
theorem command_cases {r : UInt32} {room : Room} (hroom : manager.rooms.lookup r = some room)
    {command : Gamecommand} (hmem : command.playerId ∈ room.members) :
  (∃ state ∈ [States.roomNotRunning, .alreadySubmitted],
      manager.command r command.playerId (fun room => room.submit command)
        = ({ state := state }, manager))
    ∨ manager.command r command.playerId (fun room => room.submit command)
      = (⟨.success, r, command.playerId⟩, manager.setRoom r
        { room with pendingCommands := room.pendingCommands ++ [command] })
  := by
  have hcontains : room.contains command.playerId = true := decide_eq_true hmem
  rw [RoomManager.command, hroom]
  simp only [hcontains, Bool.not_true, Bool.false_eq_true, if_false]
  obtain ⟨hfail, hsame, hfound⟩ | ⟨-, -, -, hsubmit⟩ := room.submit_cases command
  · left
    rw [hsame, setRoom_lookup hroom]
    cases hstate : (room.submit command).1 with
    | success => exact absurd hstate hfail
    | invalidState => exact ⟨.roomNotRunning, by simp, rfl⟩
    | playerNotFound => exact absurd hstate (hfound hmem)
    | alreadySubmitted => exact ⟨.alreadySubmitted, by simp, rfl⟩
  · right
    rw [hsubmit]

theorem lookup_tickRooms (manager : RoomManager) (r : UInt32) :
  manager.tickRooms.2.rooms.lookup r = (manager.rooms.lookup r).map tickRoom
  := AList.lookup_mapValues tickRoom manager.rooms r

theorem tickRoom_eq (room : Room) :
  tickRoom room = room.tick.2
  := by
  rw [tickRoom, Room.tick, Room.state]
  split <;> rfl

/-- What there is to tell about a tick is read off the room after it. -/
theorem tickResult_eq_some {room : Room} {result : TickResult}
    (h : tickResult room = some result) :
  room.stateMachine.state = .running ∧ result.roomId = room.roomId
    ∧ result.tickId = (tickRoom room).tickId
    ∧ result.snapshot = (tickRoom room).gameState.snapshot
    ∧ result.notifyConnections = room.connections 0
  := by
  rw [tickResult] at h
  split at h
  · cases h
  next hrunning =>
  have hstate : room.stateMachine.state = .running := not_not.mp hrunning
  have htick : room.tick = (⟨.success, room.tickId + 1, room.pendingCommands.length,
      (Room.processCommands room.gameState room.pendingCommands).1,
      (Room.processCommands room.gameState room.pendingCommands).2.snapshot⟩, { room with
        gameState := (Room.processCommands room.gameState room.pendingCommands).2
        tickId := room.tickId + 1
        pendingCommands := [] }) := by
    rw [Room.tick, if_neg (not_not.mpr hstate)]
  rw [htick] at h
  cases h
  rw [tickRoom_eq, htick]
  exact ⟨hstate, rfl, rfl, rfl, rfl⟩

theorem roomId_tickRoom (room : Room) :
  (tickRoom room).roomId = room.roomId
  := by
  rw [tickRoom_eq]
  obtain heq | ⟨-, heq⟩ := room.tick_cases <;> rw [heq]

/-- Ticking changes no member. -/
theorem member_tickRooms (manager : RoomManager) (r : UInt32) (p : UInt64) :
  manager.tickRooms.2.member r p = manager.member r p
  := by
  rw [member, member, lookup_tickRooms]
  cases manager.rooms.lookup r with
  | none => rfl
  | some room =>
    simp only [Option.map_some, Option.bind_eq_bind, Option.bind_some, tickRoom_eq,
      Room.tick_members]

theorem Valid.tickRooms (h : manager.Valid) :
  manager.tickRooms.2.Valid
  := by
  constructor
  · intro r room hr
    rw [lookup_tickRooms] at hr
    obtain ⟨room', hr', rfl⟩ := Option.map_eq_some_iff.mp hr
    rw [roomId_tickRoom, h.key hr']
  · intro r room hr
    rw [lookup_tickRooms] at hr
    obtain ⟨room', hr', rfl⟩ := Option.map_eq_some_iff.mp hr
    rw [tickRoom_eq]
    apply (h.valid hr').tick

/-- `addRoom` does nothing, or it adds a fresh room under a new id. -/
theorem addRoom_cases (manager : RoomManager) (r : UInt32) (capacity : UInt64) :
  (manager.addRoom r capacity).2 = manager
    ∨ r ∉ manager.rooms
      ∧ (manager.addRoom r capacity).2 = ⟨manager.rooms.insert r (Room.new r capacity)⟩
  := by
  rw [addRoom, containsRoom]
  split
  · left; rfl
  · next h =>
    right
    use by simpa using h

theorem Valid.addRoom (h : manager.Valid) (r : UInt32) (capacity : UInt64) :
  (manager.addRoom r capacity).2.Valid
  := by
  obtain heq | ⟨-, heq⟩ := manager.addRoom_cases r capacity
  · rw [heq]
    exact h
  · rw [heq]
    constructor
    · intro r' room hr
      dsimp only at hr
      rw [AList.lookup_insert_eq_ite] at hr
      split at hr
      · next hrr =>
        cases hr
        apply hrr.symm
      · apply h.key hr
    · intro r' room hr
      dsimp only at hr
      rw [AList.lookup_insert_eq_ite] at hr
      split at hr
      · cases hr
        apply Room.new_valid
      · apply h.valid hr

/-- A fresh room has no members. -/
theorem member_addRoom (manager : RoomManager) (r : UInt32) (capacity : UInt64) (r' : UInt32)
    (p : UInt64) :
  (manager.addRoom r capacity).2.member r' p = manager.member r' p
  := by
  obtain heq | ⟨hnew, heq⟩ := manager.addRoom_cases r capacity
  · rw [heq]
  · rw [heq, member, member, AList.lookup_insert_eq_ite]
    split
    · next hr =>
      rw [hr, AList.lookup_eq_none.mpr hnew]
      rfl
    · rfl

end RoomManager

end RoomServer
