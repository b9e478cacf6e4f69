import RoomServer.Checkpoint.Data
import RoomServer.Net.Protocol

/-!
# Rooms

A room keeps its members by their ids, and hands out ids in increasing order until they are
exhausted.  Players join while it waits; once it runs, their commands are collected and
settled by a tick.  A member keeps its place without a connection, and may be bound to
another one.

A room is `Valid` when its members have names and ids it could have given them, and its game
is the game of its members.  Every operation keeps a room valid, and what an operation does to
the members is stated here once for each operation.
-/

namespace RoomServer

/-- A connection, named by its address. -/
abbrev ConnId : Type := Nat

/-- A pointer to a connection, none when it is null. -/
abbrev ConnectionPtr : Type := Option ConnId

inductive Gamecommand where
  | move (playerId : UInt64) (dx dy : Int32)
  | attack (playerId targetPlayerId : UInt64)
  deriving DecidableEq, Repr

def Gamecommand.playerId : Gamecommand → UInt64
  | move playerId _ _ => playerId
  | attack playerId _ => playerId

namespace Room

inductive Joinstates where
  | success
  | invalidConnection
  | invalidPlayerName
  | invalidState
  | roomFull
  | playerIdExhausted
  deriving DecidableEq, Repr

inductive Commandstates where
  | success
  | invalidState
  | playerNotFound
  | alreadySubmitted
  deriving DecidableEq, Repr

inductive Bindingstates where
  | success
  | invalidConnection
  | playerNotFound
  | alreadyBound
  | notBound
  | connectionMismatch
  deriving DecidableEq, Repr

inductive Tickstates where
  | success
  | invalidState
  deriving DecidableEq, Repr

structure JoinResult where
  state : Joinstates
  playerId : UInt64
  members : List MemberInfo

structure TickResult where
  state : Tickstates
  tickId : UInt64
  processedCommands : Nat
  successfulCommands : Nat
  snapshot : List PlayerGameState

structure Member where
  playerId : UInt64
  playerName : Bytes
  connection : ConnectionPtr
  deriving DecidableEq, Repr

def Member.info (member : Member) : MemberInfo := ⟨member.playerId, member.playerName⟩

end Room

structure Room where
  roomId : UInt32
  capacity : UInt64
  nextPlayerId : UInt64
  stateMachine : Roomstatemachine
  gameState : Gamestate
  tickId : UInt64
  members : UnorderedMap UInt64 Room.Member
  pendingCommands : List Gamecommand

namespace Room

def new (roomId : UInt32) (capacity : UInt64) : Room where
  roomId := roomId
  capacity := capacity
  nextPlayerId := 1
  stateMachine := .new
  gameState := .new
  tickId := 0
  members := ∅
  pendingCommands := []

def memberCount (room : Room) : Nat := room.members.size

def state (room : Room) : Roomstatemachine.States := room.stateMachine.state

def gameSnapshot (room : Room) : List PlayerGameState := room.gameState.snapshot

def contains (room : Room) (playerId : UInt64) : Bool := decide (playerId ∈ room.members)

/-- Set up the game of the members, while the room waits. -/
def start (room : Room) (readyToStart : Bool) : Roomstatemachine.Transitionstates × Room :=
  if room.stateMachine.state ≠ .waiting then
    (.invalidState, room)
  else if !readyToStart then
    (.conditionNotMet, room)
  else
    let playerIds := room.members.values.map fun member => member.playerId
    let tempState := Gamestate.new.initializeGame playerIds
    if tempState.1 ≠ .success then
      (.conditionNotMet, room)
    else
      (.success, { room with
        stateMachine := (room.stateMachine.start true).2
        gameState := tempState.2
        tickId := 0
        pendingCommands := [] })

/-- End the game of a running room. -/
def finish (room : Room) (shouldFinish : Bool) : Roomstatemachine.Transitionstates × Room :=
  if room.stateMachine.state ≠ .running then
    (.invalidState, room)
  else if !shouldFinish then
    (.conditionNotMet, room)
  else
    let (finished, stateMachine) := room.stateMachine.finish shouldFinish
    let room := { room with stateMachine }
    if finished ≠ .success then
      (.invalidState, room)
    else
      (.success, { room with pendingCommands := [] })

/-- Give a new player the next id, while the room waits and has a place. -/
def join (room : Room) (connection : ConnectionPtr) (playerName : Bytes) : JoinResult × Room :=
  if connection.isNone then
    (⟨.invalidConnection, 0, []⟩, room)
  else if ¬Protocol.NameFits playerName then
    (⟨.invalidPlayerName, 0, []⟩, room)
  else if !room.stateMachine.canJoin then
    (⟨.invalidState, 0, []⟩, room)
  else if room.members.size ≥ room.capacity.toNat then
    (⟨.roomFull, 0, []⟩, room)
  else if room.nextPlayerId = 0 then
    (⟨.playerIdExhausted, 0, []⟩, room)
  else
    let playerId := room.nextPlayerId
    (⟨.success, playerId, room.members.values.map Member.info⟩, { room with
      members := room.members.emplace playerId ⟨playerId, playerName, connection⟩
      nextPlayerId := room.nextPlayerId + 1 })

/-- Remove a member for good, from the game too. -/
def leave (room : Room) (playerId : UInt64) : Bool × Room :=
  if playerId ∉ room.members then
    (false, room)
  else if room.stateMachine.state ≠ .waiting then
    let (state, gameState) := room.gameState.removePlayer playerId
    if state ≠ .success then
      (false, room)
    else
      (true, { room with gameState, members := room.members.erase playerId })
  else
    (true, { room with members := room.members.erase playerId })

/-- The connections of the members that have one, except for one member's. -/
def connections (room : Room) (excludedPlayerId : UInt64) : List ConnectionPtr :=
  room.members.entries.filterMap fun entry =>
    if entry.1 = excludedPlayerId then
      none
    else
      entry.2.connection.map some

def hasPendingCommand (room : Room) (playerId : UInt64) : Bool :=
  room.pendingCommands.any fun command => command.playerId == playerId

/-- Collect a command for the next tick, the first of the player since the last one. -/
def submit (room : Room) (command : Gamecommand) : Commandstates × Room :=
  if room.stateMachine.state ≠ .running then
    (.invalidState, room)
  else if !room.contains command.playerId then
    (.playerNotFound, room)
  else if room.hasPendingCommand command.playerId then
    (.alreadySubmitted, room)
  else
    (.success, { room with pendingCommands := room.pendingCommands ++ [command] })

def submitMove (room : Room) (playerId : UInt64) (dx dy : Int32) : Commandstates × Room :=
  room.submit (.move playerId dx dy)

def submitAttack (room : Room) (playerId targetPlayerId : UInt64) : Commandstates × Room :=
  room.submit (.attack playerId targetPlayerId)

/-- Let the game execute a command. -/
def processCommand (gameState : Gamestate) : Gamecommand → Bool × Gamestate
  | .move playerId dx dy =>
    let (state, gameState) := gameState.movePlayer playerId dx dy
    (decide (state = .success), gameState)
  | .attack playerId targetPlayerId =>
    let (result, gameState) := gameState.attackPlayer playerId targetPlayerId
    (decide (result.state = .success), gameState)

/-- The game after the commands, and how many of them succeeded. -/
def processCommands (gameState : Gamestate) : List Gamecommand → Nat × Gamestate
  | [] => (0, gameState)
  | command :: commands =>
    let (succeeded, gameState) := processCommand gameState command
    let (count, gameState) := processCommands gameState commands
    (if succeeded then count + 1 else count, gameState)

/-- Settle the collected commands. -/
def tick (room : Room) : TickResult × Room :=
  if room.stateMachine.state ≠ .running then
    (⟨.invalidState, room.tickId, 0, 0, []⟩, room)
  else
    let commands := room.pendingCommands
    let (succeeded, gameState) := processCommands room.gameState commands
    let tickId := room.tickId + 1
    (⟨.success, tickId, commands.length, succeeded, gameState.snapshot⟩,
      { room with gameState, tickId, pendingCommands := [] })

/-- The members in the order of their ids. -/
def memberSnapshot (room : Room) : List MemberInfo :=
  (room.members.values.map Member.info).sortOn fun info => info.playerId.toNat

/-- Bind a member without a connection to a new one. -/
def bindConnection (room : Room) (playerId : UInt64) (connection : ConnectionPtr) :
    Bindingstates × Room :=
  if connection.isNone then
    (.invalidConnection, room)
  else
    match room.members.lookup playerId with
    | none => (.playerNotFound, room)
    | some member =>
      if member.connection.isSome then
        (.alreadyBound, room)
      else
        (.success, { room with
          members := room.members.assign playerId { member with connection } })

/-- Take its connection from a member, if it is the given one. -/
def detachConnection (room : Room) (playerId : UInt64) (connection : ConnectionPtr) :
    Bindingstates × Room :=
  if connection.isNone then
    (.invalidConnection, room)
  else
    match room.members.lookup playerId with
    | none => (.playerNotFound, room)
    | some member =>
      if member.connection.isNone then
        (.notBound, room)
      else if member.connection ≠ connection then
        (.connectionMismatch, room)
      else
        (.success, { room with
          members := room.members.assign playerId { member with connection := none } })

def makeCheckpoint (room : Room) : Option RoomCheckpoint :=
  some {
    roomId := room.roomId
    capacity := room.capacity
    nextPlayerId := room.nextPlayerId
    state := room.stateMachine.state
    tickId := room.tickId
    members :=
      (room.members.values.map fun member =>
        CheckpointMember.mk member.playerId member.playerName).sortOn
          fun member => member.playerId.toNat
    gameStates := room.gameState.snapshot }

/-- A member as `restoreCheckpoint` takes it over. -/
def restoreMember (member : CheckpointMember) : Option Member :=
  if member.playerId = 0 then
    none
  else if ¬Protocol.NameFits member.playerName then
    none
  else
    some ⟨member.playerId, member.playerName, none⟩

/-- The state machine of a restored room; none when the state is not one of a waiting room
but the tick or the game says it waits. -/
def restoreState (checkpoint : RoomCheckpoint) : Option Roomstatemachine :=
  match checkpoint.state with
  | .waiting =>
    if checkpoint.tickId ≠ 0 then
      none
    else if checkpoint.gameStates ≠ [] then
      none
    else
      some .new
  | .running =>
    let (started, machine) := Roomstatemachine.new.start true
    if started ≠ .success then none else some machine
  | .finished =>
    let (started, machine) := Roomstatemachine.new.start true
    if started ≠ .success then
      none
    else
      let (finished, machine) := machine.finish true
      if finished ≠ .success then none else some machine

/-- The room with the data of the checkpoint in the place of its own, if all of it is valid. -/
def restoreCheckpoint (room : Room) (checkpoint : RoomCheckpoint) : Option Room :=
  if checkpoint.roomId ≠ room.roomId then
    none
  else if checkpoint.capacity ≠ room.capacity then
    none
  else if checkpoint.members.length > room.capacity.toNat then
    none
  else do
    let members ← AList.enter (fun member => member.playerId) restoreMember checkpoint.members ∅
    if checkpoint.nextPlayerId ≠ 0 ∧
        ∃ entry ∈ members.entries, checkpoint.nextPlayerId ≤ entry.1 then
      none
    else
      let stateMachine ← restoreState checkpoint
      if (checkpoint.state = .running ∨ checkpoint.state = .finished) ∧
          (checkpoint.gameStates.length ≠ members.size ∨
            ∃ state ∈ checkpoint.gameStates, state.playerId ∉ members) then
        none
      else
        let gameState ← Gamestate.restore checkpoint.gameStates
        return { room with
          members
          gameState
          stateMachine
          nextPlayerId := checkpoint.nextPlayerId
          tickId := checkpoint.tickId
          pendingCommands := [] }

/-! ### Valid rooms -/

/-- The members have names and ids the room could have given them, and the game is the game
of the members. -/
structure Valid (room : Room) : Prop where
  key : ∀ {k member}, room.members.lookup k = some member → member.playerId = k
  id_ne_zero : ∀ {k}, k ∈ room.members → k ≠ 0
  id_lt : ∀ {k}, k ∈ room.members → room.nextPlayerId ≠ 0 → k < room.nextPlayerId
  name_fits : ∀ {k member}, room.members.lookup k = some member →
    Protocol.NameFits member.playerName
  size_le : room.members.size ≤ room.capacity.toNat
  tick_eq_zero : room.stateMachine.state = .waiting → room.tickId = 0
  game_key : ∀ {k state}, room.gameState.players.lookup k = some state → state.playerId = k
  game_empty : room.stateMachine.state = .waiting → ∀ {k}, k ∉ room.gameState.players
  mem_game : room.stateMachine.state ≠ .waiting →
    ∀ {k}, k ∈ room.gameState.players ↔ k ∈ room.members

/-- The players of the game are sound, and no more than a game can start with. -/
structure Playable (room : Room) : Prop where
  sound : ∀ k state, room.gameState.players.lookup k = some state → Gamestate.Sound state
  size_le : room.gameState.players.size ≤ Gamestate.maxPlayers

theorem new_valid (roomId : UInt32) (capacity : UInt64) :
  (Room.new roomId capacity).Valid
  := by
  constructor <;> simp [Room.new, Roomstatemachine.new, Gamestate.new]

theorem new_playable (roomId : UInt32) (capacity : UInt64) :
  (Room.new roomId capacity).Playable
  := by
  constructor <;> simp [Room.new, Gamestate.new]

/-- The room waits for a player of the name, with a place and an id left. -/
structure Admits (room : Room) (playerName : Bytes) : Prop where
  name_fits : Protocol.NameFits playerName
  waiting : room.stateMachine.state = .waiting
  size_lt : room.members.size < room.capacity.toNat
  next_ne_zero : room.nextPlayerId ≠ 0

/-- The room with a new member added under the next id. -/
def enrol (room : Room) (playerName : Bytes) (connection : ConnectionPtr) : Room :=
  { room with
    members := room.members.insert room.nextPlayerId ⟨room.nextPlayerId, playerName, connection⟩
    nextPlayerId := room.nextPlayerId + 1 }

/-- The room with the next id used up. -/
def skipId (room : Room) : Room := { room with nextPlayerId := room.nextPlayerId + 1 }

/-- The room without a member. -/
def dismiss (room : Room) (playerId : UInt64) : Room :=
  { room with
    gameState := if room.stateMachine.state = .waiting then room.gameState else
      ⟨room.gameState.players.erase playerId⟩
    members := room.members.erase playerId }

/-- The room with a member's connection replaced. -/
def seat (room : Room) (member : Member) (connection : ConnectionPtr) : Room :=
  { room with members := room.members.assign member.playerId { member with connection } }

variable {room : Room}

@[simp]
theorem roomId_enrol (room : Room) (playerName : Bytes) (connection : ConnectionPtr) :
  (room.enrol playerName connection).roomId = room.roomId
  := rfl

@[simp]
theorem roomId_skipId (room : Room) :
  room.skipId.roomId = room.roomId
  := rfl

@[simp]
theorem roomId_dismiss (room : Room) (playerId : UInt64) :
  (room.dismiss playerId).roomId = room.roomId
  := rfl

@[simp]
theorem roomId_seat (room : Room) (member : Member) (connection : ConnectionPtr) :
  (room.seat member connection).roomId = room.roomId
  := rfl

/-- The next id is a new one. -/
theorem Valid.next_notMem (h : room.Valid) (hnext : room.nextPlayerId ≠ 0) :
  room.nextPlayerId ∉ room.members
  := by
  intro hmem
  exact absurd (h.id_lt hmem hnext) (UInt64.lt_irrefl _)

theorem lt_next_add_one {k next : UInt64} (h : k ≤ next) (hnext : next + 1 ≠ 0) :
  k < next + 1
  := by
  have hne : (next + 1).toNat ≠ 0 := fun h0 => hnext (UInt64.toNat_inj.mp h0)
  rw [UInt64.toNat_add] at hne
  rw [UInt64.lt_iff_toNat_lt, UInt64.toNat_add]
  rw [UInt64.le_iff_toNat_le] at h
  have := next.toNat_lt
  simp only [UInt64.reduceToNat] at *
  omega

theorem Valid.enrol (h : room.Valid) {playerName : Bytes} (hadmits : room.Admits playerName)
    (connection : ConnectionPtr) :
  (room.enrol playerName connection).Valid
  := by
  obtain ⟨hname, hwaiting, hsize, hnext⟩ := hadmits
  have hnew := h.next_notMem hnext
  constructor
  · intro k member hk
    rw [Room.enrol, AList.lookup_insert_eq_ite] at hk
    split at hk
    · next heq =>
      cases hk
      apply heq.symm
    · apply h.key hk
  · intro k hk
    rw [Room.enrol, AList.mem_insert] at hk
    rcases hk with rfl | hk
    · exact hnext
    · apply h.id_ne_zero hk
  · intro k hk hnext'
    rw [Room.enrol, AList.mem_insert] at hk
    apply lt_next_add_one _ hnext'
    rcases hk with rfl | hk
    · apply UInt64.le_refl _
    · apply UInt64.le_of_lt (h.id_lt hk hnext)
  · intro k member hk
    rw [Room.enrol, AList.lookup_insert_eq_ite] at hk
    split at hk
    · cases hk
      exact hname
    · apply h.name_fits hk
  · rw [Room.enrol, AList.size_insert_of_notMem hnew]
    exact hsize
  · apply h.tick_eq_zero
  · exact h.game_key
  · apply h.game_empty
  · intro hstate
    exact absurd hwaiting hstate

theorem Valid.skipId (h : room.Valid) (hnext : room.nextPlayerId ≠ 0) :
  room.skipId.Valid
  := by
  refine ⟨h.key, h.id_ne_zero, ?_, h.name_fits, h.size_le, h.tick_eq_zero, h.game_key,
    h.game_empty, h.mem_game⟩
  intro k hk hnext'
  apply lt_next_add_one _ hnext'
  apply UInt64.le_of_lt (h.id_lt hk hnext)

theorem Valid.dismiss (h : room.Valid) (playerId : UInt64) :
  (room.dismiss playerId).Valid
  := by
  have hlookup : ∀ {k member}, (room.dismiss playerId).members.lookup k = some member →
      room.members.lookup k = some member := by
    intro k member hk
    rw [Room.dismiss, AList.lookup_erase_eq_ite] at hk
    split at hk
    · cases hk
    · exact hk
  have hmem : ∀ {k}, k ∈ (room.dismiss playerId).members → k ∈ room.members := by
    intro k hk
    obtain ⟨member, hk⟩ := AList.mem_iff_lookup.mp hk
    apply AList.mem_iff_lookup.mpr ⟨member, hlookup hk⟩
  constructor
  · intro k member hk
    apply h.key (hlookup hk)
  · intro k hk
    apply h.id_ne_zero (hmem hk)
  · intro k hk
    apply h.id_lt (hmem hk)
  · intro k member hk
    apply h.name_fits (hlookup hk)
  · apply Nat.le_trans _ h.size_le
    apply AList.size_le_of_subset fun k hk => hmem hk
  · apply h.tick_eq_zero
  · intro k state hk
    rw [Room.dismiss] at hk
    dsimp only at hk
    split at hk
    · apply h.game_key hk
    · rw [AList.lookup_erase_eq_ite] at hk
      split at hk
      · cases hk
      · apply h.game_key hk
  · intro hstate k
    have hstate' : room.stateMachine.state = .waiting := hstate
    rw [Room.dismiss, if_pos hstate']
    apply h.game_empty hstate'
  · intro hstate k
    have hstate' : ¬room.stateMachine.state = .waiting := hstate
    rw [Room.dismiss, if_neg hstate', AList.mem_erase, AList.mem_erase, h.mem_game hstate']

/-- Seating a member on another connection changes this member only. -/
theorem lookup_seat (h : room.Valid) {k : UInt64} {member : Member}
    (hk : room.members.lookup k = some member) (connection : ConnectionPtr) (k' : UInt64) :
  (room.seat member connection).members.lookup k'
    = if k' = k then some { member with connection } else room.members.lookup k'
  := by
  rw [seat, h.key hk, AList.lookup_assign_of_mem (AList.mem_iff_lookup.mpr ⟨member, hk⟩)]

theorem Valid.seat (h : room.Valid) {k : UInt64} {member : Member}
    (hk : room.members.lookup k = some member) (connection : ConnectionPtr) :
  (room.seat member connection).Valid
  := by
  have hmem : ∀ {k'}, k' ∈ (room.seat member connection).members ↔ k' ∈ room.members :=
    AList.mem_assign
  constructor
  · intro k' member' hk'
    rw [lookup_seat h hk] at hk'
    split at hk'
    · next heq =>
      cases hk'
      rw [heq, ← h.key hk]
    · apply h.key hk'
  · intro k' hk'
    apply h.id_ne_zero (hmem.mp hk')
  · intro k' hk'
    apply h.id_lt (hmem.mp hk')
  · intro k' member' hk'
    rw [lookup_seat h hk] at hk'
    split at hk'
    · cases hk'
      have hname := h.name_fits hk
      exact hname
    · apply h.name_fits hk'
  · rw [Room.seat, AList.size_assign]
    apply h.size_le
  · apply h.tick_eq_zero
  · exact h.game_key
  · apply h.game_empty
  · intro hstate k'
    rw [hmem]
    apply h.mem_game hstate

/-- Taking a connection back from a member that had none undoes seating it. -/
theorem seat_seat (h : room.Valid) {k : UInt64} {member : Member}
    (hk : room.members.lookup k = some member) (hoffline : member.connection = none)
    (connection : ConnectionPtr) :
  (room.seat member connection).seat { member with connection } none = room
  := by
  have hsame : { member with connection := none } = member := by rw [← hoffline]
  have hkey := h.key hk
  simp only [Room.seat, AList.assign_assign, hsame]
  rw [hkey, AList.assign_lookup hk]

/-! ### What the operations do -/

/-- `join` does nothing about a player the room does not admit, and enrols one it does. -/
theorem join_cases (h : room.Valid) (connection : ConnectionPtr) (playerName : Bytes) :
  ((room.join connection playerName).1.state ≠ .success
      ∧ (room.join connection playerName).2 = room
      ∧ (connection ≠ none → ¬room.Admits playerName
        ∧ (room.join connection playerName).1.state ≠ .invalidConnection))
    ∨ connection ≠ none ∧ room.Admits playerName
      ∧ room.join connection playerName
        = (⟨.success, room.nextPlayerId, room.members.values.map Member.info⟩,
          room.enrol playerName connection)
  := by
  rw [join]
  split
  · next hconn =>
    left
    refine ⟨by simp, rfl, fun hne => ?_⟩
    simp [hne] at hconn
  split
  · next hname =>
    left
    exact ⟨by simp, rfl, fun _ => ⟨fun h => hname h.name_fits, by simp⟩⟩
  next hconn hname =>
  split
  · next hstate =>
    left
    refine ⟨by simp, rfl, fun _ => ⟨fun h => ?_, by simp⟩⟩
    simp [Roomstatemachine.canJoin, h.waiting] at hstate
  split
  · next hsize =>
    left
    exact ⟨by simp, rfl, fun _ => ⟨fun h => absurd h.size_lt (Nat.not_lt.mpr hsize), by simp⟩⟩
  split
  · next hnext =>
    left
    exact ⟨by simp, rfl, fun _ => ⟨fun h => h.next_ne_zero hnext, by simp⟩⟩
  next hstate hsize hnext =>
  right
  dsimp only
  rw [AList.emplace_of_notMem (h.next_notMem hnext)]
  refine ⟨by simpa using hconn, ⟨not_not.mp hname, ?_, by omega, hnext⟩, rfl⟩
  simpa [Roomstatemachine.canJoin] using hstate

/-- `leave` removes a member of a valid room. -/
theorem leave_of_mem (h : room.Valid) {playerId : UInt64} (hmem : playerId ∈ room.members) :
  room.leave playerId = (true, room.dismiss playerId)
  := by
  rw [leave, if_neg (not_not.mpr hmem), dismiss]
  by_cases hstate : room.stateMachine.state = .waiting
  · rw [if_neg (not_not.mpr hstate), if_pos hstate]
  · have hgame := (h.mem_game hstate).mpr hmem
    rw [if_pos hstate, if_neg hstate, Gamestate.removePlayer, if_neg (h.id_ne_zero hmem),
      if_neg (not_not.mpr hgame)]
    rfl

/-- Dismissing a member that was just enrolled only uses up its id. -/
theorem dismiss_enrol (h : room.Valid) (hwaiting : room.stateMachine.state = .waiting)
    (hnext : room.nextPlayerId ≠ 0) (playerName : Bytes) (connection : ConnectionPtr) :
  (room.enrol playerName connection).dismiss room.nextPlayerId = room.skipId
  := by
  rw [dismiss, if_pos (show (room.enrol _ _).stateMachine.state = _ from hwaiting)]
  simp only [enrol, skipId, AList.erase_insert_of_notMem (h.next_notMem hnext)]

/-- A start that fails changes nothing. -/
theorem start_of_failure (room : Room) (readyToStart : Bool)
    (h : (room.start readyToStart).1 ≠ .success) :
  (room.start readyToStart).2 = room
  := by
  rw [start] at h ⊢
  split
  · rfl
  · next hstate =>
    rw [if_neg hstate] at h
    split
    · rfl
    · next hready =>
      rw [if_neg hready] at h
      dsimp only at h ⊢
      split
      · rfl
      · next hinit =>
        rw [if_neg hinit] at h
        exact absurd rfl h

/-- The room with the game of its members set up. -/
def started (room : Room) : Room := (room.start true).2

theorem started_members (room : Room) :
  room.started.members = room.members
  := by
  rw [started, start]
  split
  · rfl
  · split
    · rfl
    · dsimp only
      split <;> rfl

theorem keys_nodup_members (h : room.Valid) :
  (room.members.values.map fun member => member.playerId) = room.members.keys
  := by
  rw [AList.values, AList.keys, List.keys, List.map_map]
  apply List.map_congr_left
  intro entry hentry
  apply h.key (AList.mem_lookup_iff.mpr hentry)

/-- The players a game of a valid room is set up with. -/
theorem start_spec (h : room.Valid) (hsuccess : (room.start true).1 = .success) :
  room.stateMachine.state = .waiting ∧ room.started.stateMachine.state = .running
    ∧ room.started = { room with
      stateMachine := room.started.stateMachine
      gameState := room.started.gameState
      tickId := 0
      pendingCommands := [] }
    ∧ room.members.size ≤ Gamestate.maxPlayers
    ∧ (∀ k, k ∈ room.started.gameState.players ↔ k ∈ room.members)
    ∧ ∀ k state, room.started.gameState.players.lookup k = some state →
      state.playerId = k ∧ Gamestate.Sound state
  := by
  rw [started]
  rw [start] at hsuccess ⊢
  split at hsuccess
  · cases hsuccess
  · next hstate =>
    rw [if_neg hstate]
    split at hsuccess
    · cases hsuccess
    · next htrue =>
      rw [if_neg htrue]
      dsimp only at hsuccess ⊢
      split at hsuccess
      · cases hsuccess
      · next hinit =>
        rw [if_neg hinit]
        rw [not_not] at hinit hstate
        rw [keys_nodup_members h] at hinit ⊢
        obtain ⟨hne, hlen⟩ := Gamestate.initializeGame_success hinit
        obtain ⟨-, hkeys, hsound⟩ := Gamestate.initializeGame_spec .new hne hlen
          (fun id hid => h.id_ne_zero hid) room.members.keys_nodup
        refine ⟨hstate, ?_, rfl, ?_, hkeys, hsound⟩
        · simp [Roomstatemachine.start, hstate]
        · rw [← AList.length_keys]
          exact hlen

/-- A waiting room with members starts when they are no more than a game has places for. -/
theorem start_success_iff (h : room.Valid) (hwaiting : room.stateMachine.state = .waiting)
    (hne : room.members.size ≠ 0) :
  (room.start true).1 = .success ↔ room.members.size ≤ Gamestate.maxPlayers
  := by
  constructor
  · intro hsuccess
    apply (start_spec h hsuccess).2.2.2.1
  · intro hsize
    rw [← AList.length_keys] at hsize hne
    have hids : room.members.keys ≠ [] := by
      intro hempty
      rw [hempty] at hne
      apply hne rfl
    obtain ⟨hinit, -⟩ := Gamestate.initializeGame_spec .new hids hsize
      (fun id hid => h.id_ne_zero hid) room.members.keys_nodup
    rw [start, if_neg (not_not.mpr hwaiting), if_neg (by decide)]
    dsimp only
    rw [keys_nodup_members h, if_neg (not_not.mpr hinit)]

theorem Valid.started (h : room.Valid) (hsuccess : (room.start true).1 = .success) :
  room.started.Valid
  := by
  obtain ⟨hwaiting, hrunning, heq, hsize, hkeys, hsound⟩ := start_spec h hsuccess
  have hmembers := started_members room
  have hnext : room.started.nextPlayerId = room.nextPlayerId := by rw [heq]
  have hcapacity : room.started.capacity = room.capacity := by rw [heq]
  constructor
  · rw [hmembers]
    exact h.key
  · rw [hmembers]
    exact h.id_ne_zero
  · rw [hmembers, hnext]
    exact h.id_lt
  · rw [hmembers]
    exact h.name_fits
  · rw [hmembers, hcapacity]
    apply h.size_le
  · rw [hrunning]
    intro h
    cases h
  · intro k state hk
    apply (hsound k state hk).1
  · rw [hrunning]
    intro h
    cases h
  · intro _ k
    rw [hmembers]
    apply hkeys

theorem started_playable (h : room.Valid) (hsuccess : (room.start true).1 = .success) :
  room.started.Playable
  := by
  obtain ⟨-, -, -, hsize, hkeys, hsound⟩ := start_spec h hsuccess
  constructor
  · intro k state hk
    apply (hsound k state hk).2
  · rw [AList.size_eq_of_mem_iff hkeys]
    exact hsize

/-- `submit` does nothing, or it collects the first command of a member of a running room. -/
theorem submit_cases (room : Room) (command : Gamecommand) :
  ((room.submit command).1 ≠ .success ∧ (room.submit command).2 = room
      ∧ (command.playerId ∈ room.members → (room.submit command).1 ≠ .playerNotFound))
    ∨ room.stateMachine.state = .running ∧ command.playerId ∈ room.members
      ∧ command.playerId ∉ room.pendingCommands.map Gamecommand.playerId
      ∧ room.submit command
        = (.success, { room with pendingCommands := room.pendingCommands ++ [command] })
  := by
  rw [submit]
  split
  · left; simp
  next hrunning =>
  split
  · next hmember =>
    left
    refine ⟨by simp, rfl, fun hmem => ?_⟩
    simp [contains, hmem] at hmember
  next hmember =>
  split
  · left; simp
  next hpending =>
  right
  refine ⟨not_not.mp hrunning, by simpa [contains] using hmember, ?_, rfl⟩
  intro hmem
  obtain ⟨command', hmem', heq⟩ := List.mem_map.mp hmem
  apply hpending
  rw [hasPendingCommand, List.any_eq_true]
  use command', hmem'
  simpa using heq

/-- `bindConnection` does nothing, or it seats a member without a connection on the given
one. -/
theorem bindConnection_cases (h : room.Valid) (playerId : UInt64) (connection : ConnectionPtr) :
  (room.bindConnection playerId connection).1 ≠ .success
      ∧ (room.bindConnection playerId connection).2 = room
    ∨ ∃ member, room.members.lookup playerId = some member ∧ member.connection = none
      ∧ connection ≠ none
      ∧ room.bindConnection playerId connection = (.success, room.seat member connection)
  := by
  rw [bindConnection]
  split
  · left; simp
  · next hconn =>
    split
    · left; simp
    · next member hmember =>
      split
      · left; simp
      · next hoffline =>
        right
        refine ⟨member, hmember, by simpa using hoffline, by simpa using hconn, ?_⟩
        rw [seat, h.key hmember]

theorem bindConnection_of_offline (h : room.Valid) {playerId : UInt64} {member : Member}
    (hmember : room.members.lookup playerId = some member) (hoffline : member.connection = none)
    (conn : ConnId) :
  room.bindConnection playerId (some conn) = (.success, room.seat member (some conn))
  := by
  rw [bindConnection]
  simp [hmember, hoffline, seat, h.key hmember]

/-- `detachConnection` takes the connection from the member that has it. -/
theorem detachConnection_of_bound (h : room.Valid) {playerId : UInt64} {member : Member}
    (hmember : room.members.lookup playerId = some member) {conn : ConnId}
    (hbound : member.connection = some conn) :
  room.detachConnection playerId (some conn) = (.success, room.seat member none)
  := by
  rw [detachConnection]
  simp [hmember, hbound, seat, h.key hmember]

/-- Every member's connection but for the excluded one's is listed. -/
theorem mem_connections {excluded : UInt64} {ptr : ConnectionPtr} :
  ptr ∈ room.connections excluded
    ↔ ∃ k member c, room.members.lookup k = some member ∧ k ≠ excluded
      ∧ member.connection = some c ∧ ptr = some c
  := by
  rw [connections, List.mem_filterMap]
  constructor
  · rintro ⟨⟨k, member⟩, hentry, heq⟩
    split at heq
    · cases heq
    · next hk =>
      obtain ⟨c, hc, rfl⟩ := Option.map_eq_some_iff.mp heq
      use k, member, c, AList.mem_lookup_iff.mpr hentry, hk, hc
  · rintro ⟨k, member, c, hmember, hk, hc, rfl⟩
    use ⟨k, member⟩, AList.mem_lookup_iff.mp hmember
    dsimp only at hc ⊢
    rw [if_neg hk, hc]
    rfl

/-- No connection is listed twice when no two members share one. -/
theorem nodup_connections (hinj : ∀ {k k' member member' c},
      room.members.lookup k = some member → room.members.lookup k' = some member' →
      member.connection = some c → member'.connection = some c → k = k')
    (excluded : UInt64) :
  (room.connections excluded).Nodup
  := by
  have hentry : ∀ {entry : Sigma fun _ : UInt64 => Member} {ptr : ConnectionPtr},
      (if entry.1 = excluded then none else entry.2.connection.map some) = some ptr →
      ∃ c, entry.2.connection = some c ∧ ptr = some c := by
    intro entry ptr h
    split at h
    · cases h
    · obtain ⟨c, hc, rfl⟩ := Option.map_eq_some_iff.mp h
      exact ⟨c, hc, rfl⟩
  rw [connections, List.Nodup, List.pairwise_filterMap]
  apply room.members.nodupKeys.pairwise_ne.imp_of_mem
  intro entry entry' hmem hmem' hne ptr hptr ptr' hptr' heq
  obtain ⟨c, hc, rfl⟩ := hentry hptr
  obtain ⟨c', hc', rfl⟩ := hentry hptr'
  cases heq
  apply hne (hinj (AList.mem_lookup_iff.mpr hmem) (AList.mem_lookup_iff.mpr hmem') hc hc')

/-- The ids the members are listed under are those they are kept under. -/
theorem map_playerId_infos (h : room.Valid) :
  ((room.members.values.map Member.info).map fun info => info.playerId) = room.members.keys
  := by
  rw [← keys_nodup_members h, List.map_map]
  rfl

theorem mem_infos (h : room.Valid) {info : MemberInfo} :
  info ∈ room.members.values.map Member.info
    ↔ ∃ member, room.members.lookup info.playerId = some member
      ∧ member.playerName = info.playerName
  := by
  rw [List.mem_map]
  constructor
  · rintro ⟨member, hmember, rfl⟩
    obtain ⟨k, hk⟩ := AList.mem_values.mp hmember
    use member
    rw [Member.info, h.key hk]
    use hk
  · rintro ⟨member, hmember, hname⟩
    use member, AList.mem_values.mpr ⟨_, hmember⟩
    rw [Member.info, h.key hmember, hname]

theorem processCommand_changes (game : Gamestate) (command : Gamecommand) :
  game.Changes (processCommand game command).2
  := by
  cases command with
  | move playerId dx dy => apply Gamestate.movePlayer_changes
  | attack playerId targetPlayerId => apply Gamestate.attackPlayer_changes

/-- Commands add and remove no player. -/
theorem mem_processCommands (commands : List Gamecommand) (game : Gamestate) (k : UInt64) :
  k ∈ (processCommands game commands).2.players ↔ k ∈ game.players
  := by
  induction commands generalizing game with
  | nil => rfl
  | cons command commands ih =>
    rw [processCommands]
    apply (ih _).trans ((processCommand_changes game command).mem_iff k)

/-- A property of single players that a changed player keeps survives all commands. -/
theorem forall_processCommands (commands : List Gamecommand) (game : Gamestate)
    {P : UInt64 → PlayerGameState → Prop}
    (hP : ∀ k state state', state'.playerId = state.playerId →
      (Gamestate.Sound state → Gamestate.Sound state') → P k state → P k state')
    (hgame : ∀ k state, game.players.lookup k = some state → P k state) :
  ∀ k state, (processCommands game commands).2.players.lookup k = some state → P k state
  := by
  induction commands generalizing game with
  | nil => exact hgame
  | cons command commands ih =>
    rw [processCommands]
    apply ih
    apply (processCommand_changes game command).forall hP hgame

/-- `tick` does nothing, or it settles the commands of a running room. -/
theorem tick_cases (room : Room) :
  (room.tick).2 = room
    ∨ room.stateMachine.state = .running
      ∧ (room.tick).2 = { room with
        gameState := (processCommands room.gameState room.pendingCommands).2
        tickId := room.tickId + 1
        pendingCommands := [] }
  := by
  rw [tick]
  split
  · left; rfl
  · next hstate =>
    right
    use not_not.mp hstate

theorem tick_members (room : Room) :
  room.tick.2.members = room.members
  := by
  obtain h | ⟨-, h⟩ := tick_cases room <;> rw [h]

theorem Valid.tick (h : room.Valid) :
  room.tick.2.Valid
  := by
  obtain heq | ⟨hrunning, heq⟩ := tick_cases room
  · rw [heq]
    exact h
  · rw [heq]
    refine ⟨h.key, h.id_ne_zero, h.id_lt, h.name_fits, h.size_le, ?_, ?_, ?_, ?_⟩
    · dsimp only
      rw [hrunning]
      intro h
      cases h
    · intro k state
      apply forall_processCommands room.pendingCommands room.gameState
        (P := fun k state => state.playerId = k)
      · intro k state state' hid _ hk
        rw [hid, hk]
      · intro k state
        apply h.game_key
    · dsimp only
      rw [hrunning]
      intro h
      cases h
    · intro hstate k
      apply (mem_processCommands _ _ k).trans (h.mem_game hstate)

theorem Playable.tick (h : room.Playable) :
  room.tick.2.Playable
  := by
  obtain heq | ⟨-, heq⟩ := tick_cases room
  · rw [heq]
    exact h
  · rw [heq]
    constructor
    · apply forall_processCommands room.pendingCommands room.gameState
        (P := fun _ state => Gamestate.Sound state)
      · intro _ state state' _ hsound
        exact hsound
      · apply h.sound
    · dsimp only
      rw [AList.size_eq_of_mem_iff (mem_processCommands room.pendingCommands room.gameState)]
      apply h.size_le

theorem Valid.pending (h : room.Valid) (pendingCommands : List Gamecommand) :
  { room with pendingCommands }.Valid
  := ⟨h.key, h.id_ne_zero, h.id_lt, h.name_fits, h.size_le, h.tick_eq_zero, h.game_key,
    h.game_empty, h.mem_game⟩

theorem Playable.dismiss (h : room.Playable) (playerId : UInt64) :
  (room.dismiss playerId).Playable
  := by
  rw [Room.dismiss]
  split
  · exact ⟨h.sound, h.size_le⟩
  · constructor
    · intro k state hk
      dsimp only at hk
      rw [AList.lookup_erase_eq_ite] at hk
      split at hk
      · cases hk
      · apply h.sound k state hk
    · apply Nat.le_trans _ h.size_le
      apply AList.size_le_of_subset
      intro k hk
      apply (AList.mem_erase.mp hk).2

/-! ### The order of the maps -/

/-- The rooms are the same up to the order of their members and players. -/
def Reordered (room room' : Room) : Prop :=
  ∃ members players, room.members.Similar members ∧ room.gameState.players.Similar players
    ∧ room' = { room with members, gameState := ⟨players⟩ }

theorem Reordered.valid {room' : Room} (h : room.Reordered room')
    (hvalid : room.Valid) :
  room'.Valid
  := by
  obtain ⟨members, players, hm, hp, rfl⟩ := h
  constructor
  · intro k member hk
    apply hvalid.key ((hm k).trans hk)
  · intro k hk
    apply hvalid.id_ne_zero ((hm.mem_iff k).mpr hk)
  · intro k hk
    apply hvalid.id_lt ((hm.mem_iff k).mpr hk)
  · intro k member hk
    apply hvalid.name_fits ((hm k).trans hk)
  · apply hm.size_eq ▸ hvalid.size_le
  · apply hvalid.tick_eq_zero
  · intro k state hk
    apply hvalid.game_key ((hp k).trans hk)
  · intro hstate k hk
    apply hvalid.game_empty hstate ((hp.mem_iff k).mpr hk)
  · intro hstate k
    apply (hp.mem_iff k).symm.trans ((hvalid.mem_game hstate).trans (hm.mem_iff k))

end Room

end RoomServer
