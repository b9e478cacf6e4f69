import RoomServer.Checkpoint.Restore
import RoomServer.Game.Commands
import RoomServer.Lib.Transition

/-!
# Runs of a room

The operations of a room come in any order.  Between two of them a connection may be destroyed,
which its member then has no more, and the maps may come in another order.

In every state a room reaches it is `Intact`: it is valid, its players stand on the board, and
commands wait only while it runs, at most one of each player.  Until the next checkpoint is
restored its state only advances, and no id is given twice.
-/

namespace RoomServer

namespace Room

variable {room room' : Room}

/-! ### Intact rooms -/

/-- The room is valid, its players stand on the board, and commands wait only while it runs, at
most one of each player. -/
structure Intact (room : Room) : Prop extends Valid room where
  on_board : ∀ k state, room.gameState.players.lookup k = some state → OnBoard state
  running : room.pendingCommands ≠ [] → room.stateMachine.state = .running
  pending_nodup : (room.pendingCommands.map Gamecommand.playerId).Nodup

/-- From waiting to running, and from running to finished. -/
inductive Advances (state : Roomstatemachine.States) : Roomstatemachine.States → Prop
  | stay : Advances state state
  | start (h : state = .waiting) : Advances state .running
  | finish (h : state = .running) : Advances state .finished

/-- The member has lost the connection. -/
def Member.expire (member : Member) (c : ConnId) : Member :=
  if member.connection = some c then { member with connection := none } else member

/-- The members have a connection that is destroyed no more. -/
def expire (room : Room) (c : ConnId) : Room :=
  { room with members := room.members.mapValues fun member => member.expire c }

theorem new_intact (roomId : UInt32) (capacity : UInt64) :
  (Room.new roomId capacity).Intact
  := by
  refine ⟨new_valid roomId capacity, ?_, ?_, ?_⟩ <;> simp [Room.new, Gamestate.new]

/-! ### The operations -/

theorem Intact.join (h : room.Intact) (connection : ConnectionPtr) (playerName : Bytes) :
  (room.join connection playerName).2.Intact
  := by
  obtain ⟨-, hsame, -⟩ | ⟨-, hadmits, hjoin⟩ := join_cases h.toValid connection playerName
  · rw [hsame]
    exact h
  · rw [hjoin]
    exact ⟨h.toValid.enrol hadmits connection, h.on_board, h.running, h.pending_nodup⟩

/-- A player that is not a member is not dismissed. -/
theorem leave_of_notMem {playerId : UInt64} (hmem : playerId ∉ room.members) :
  room.leave playerId = (false, room)
  := by rw [leave, if_pos hmem]

theorem Intact.leave (h : room.Intact) (playerId : UInt64) :
  (room.leave playerId).2.Intact
  := by
  by_cases hmem : playerId ∈ room.members
  · rw [leave_of_mem h.toValid hmem]
    refine ⟨h.toValid.dismiss playerId, ?_, h.running, h.pending_nodup⟩
    intro k state hk
    rw [dismiss] at hk
    dsimp only at hk
    split at hk
    · apply h.on_board k state hk
    · rw [AList.lookup_erase_eq_ite] at hk
      split at hk
      · cases hk
      · apply h.on_board k state hk
  · rw [leave_of_notMem hmem]
    exact h

theorem Intact.bindConnection (h : room.Intact) (playerId : UInt64) (connection : ConnectionPtr) :
  (room.bindConnection playerId connection).2.Intact
  := by
  obtain ⟨-, hsame⟩ | ⟨member, hmember, -, -, hbind⟩ :=
    bindConnection_cases h.toValid playerId connection
  · rw [hsame]
    exact h
  · rw [hbind]
    exact ⟨h.toValid.seat hmember connection, h.on_board, h.running, h.pending_nodup⟩

/-- `detachConnection` does nothing, or it takes its connection from a member. -/
theorem detachConnection_cases (h : room.Valid) (playerId : UInt64) (connection : ConnectionPtr) :
  (room.detachConnection playerId connection).2 = room
    ∨ ∃ member, room.members.lookup playerId = some member
      ∧ (room.detachConnection playerId connection).2 = room.seat member none
  := by
  rw [Room.detachConnection]
  split
  · left; rfl
  · split
    · left; rfl
    · next member hmember =>
      split
      · left; rfl
      · split
        · left; rfl
        · right
          use member, hmember
          rw [seat, h.key hmember]

theorem Intact.detachConnection (h : room.Intact) (playerId : UInt64)
    (connection : ConnectionPtr) :
  (room.detachConnection playerId connection).2.Intact
  := by
  obtain hsame | ⟨member, hmember, hdetach⟩ :=
    detachConnection_cases h.toValid playerId connection
  · rw [hsame]
    exact h
  · rw [hdetach]
    exact ⟨h.toValid.seat hmember none, h.on_board, h.running, h.pending_nodup⟩

/-- `start` does nothing, or it starts the room. -/
theorem start_cases (room : Room) (readyToStart : Bool) :
  (room.start readyToStart).2 = room
    ∨ (room.start true).1 = .success ∧ (room.start readyToStart).2 = room.started
  := by
  by_cases hsuccess : (room.start readyToStart).1 = .success
  · cases readyToStart with
    | false =>
      rw [Room.start] at hsuccess
      split at hsuccess <;> cases hsuccess
    | true => exact .inr ⟨hsuccess, rfl⟩
  · exact .inl (start_of_failure room readyToStart hsuccess)

theorem Intact.start (h : room.Intact) (readyToStart : Bool) :
  (room.start readyToStart).2.Intact
  := by
  obtain hsame | ⟨hsuccess, hstart⟩ := start_cases room readyToStart
  · rw [hsame]
    exact h
  · rw [hstart]
    obtain ⟨-, -, heq, -, -, -⟩ := start_spec h.toValid hsuccess
    have hpending : room.started.pendingCommands = [] := by rw [heq]
    refine ⟨h.toValid.started hsuccess, ?_, ?_, ?_⟩
    · intro k state hk
      have hsound := (started_playable h.toValid hsuccess).sound k state hk
      apply onBoard_iff.mpr hsound.on_board
    · intro hne
      exact absurd hpending hne
    · rw [hpending]
      apply List.nodup_nil

/-- `finish` does nothing, or it finishes a running room. -/
theorem finish_cases (room : Room) (shouldFinish : Bool) :
  (room.finish shouldFinish).2 = room
    ∨ room.stateMachine.state = .running
      ∧ (room.finish shouldFinish).2
        = { room with stateMachine := ⟨.finished⟩, pendingCommands := [] }
  := by
  rw [Room.finish]
  split
  · left; rfl
  · next hrunning =>
    rw [not_not] at hrunning
    split
    · left; rfl
    · next hfinish =>
      right
      use hrunning
      rw [Roomstatemachine.finish, if_neg (not_not.mpr hrunning), if_neg hfinish]
      rfl

theorem Intact.finish (h : room.Intact) (shouldFinish : Bool) :
  (room.finish shouldFinish).2.Intact
  := by
  obtain hsame | ⟨hrunning, hfinish⟩ := finish_cases room shouldFinish
  · rw [hsame]
    exact h
  · rw [hfinish]
    have hmem : ∀ {k}, k ∈ room.gameState.players ↔ k ∈ room.members :=
      h.mem_game (by rw [hrunning]; simp)
    refine ⟨⟨h.key, h.id_ne_zero, h.id_lt, h.name_fits, h.size_le, ?_, h.game_key, ?_, ?_⟩,
      h.on_board, ?_, List.nodup_nil⟩
    · rintro ⟨⟩
    · rintro ⟨⟩
    · intro _ k
      exact hmem
    · intro hne
      exact absurd rfl hne

theorem Intact.submit (h : room.Intact) (command : Gamecommand) :
  (room.submit command).2.Intact
  := by
  obtain ⟨-, hsame, -⟩ | ⟨hrunning, -, hfirst, hsubmit⟩ := submit_cases room command
  · rw [hsame]
    exact h
  · rw [hsubmit]
    refine ⟨h.toValid.pending _, h.on_board, fun _ => hrunning, ?_⟩
    rw [List.map_append, List.map_singleton]
    apply h.pending_nodup.append (List.nodup_singleton _) (by simpa using hfirst)

theorem Intact.tick (h : room.Intact) :
  room.tick.2.Intact
  := by
  have hvalid := h.toValid.tick
  obtain hsame | ⟨-, htick⟩ := tick_cases room
  · rw [hsame]
    exact h
  · rw [htick] at hvalid ⊢
    refine ⟨hvalid, ?_, fun hne => absurd rfl hne, List.nodup_nil⟩
    intro k state' hk
    have hmem := (mem_processCommands room.pendingCommands room.gameState k).mp
      (AList.mem_iff_lookup.mpr ⟨state', hk⟩)
    obtain ⟨state, hstate⟩ := AList.mem_iff_lookup.mp hmem
    obtain ⟨state'', hk', haffects⟩ := affects_processCommands hstate room.pendingCommands
    rw [show _ = some state' from hk, Option.some.injEq] at hk'
    rw [hk']
    apply haffects.on_board (h.on_board k state hstate)

/-- A room is restored as the room that its checkpoint describes. -/
theorem restoreRoom_of_restoreCheckpoint {checkpoint : RoomCheckpoint}
    (h : room.restoreCheckpoint checkpoint = some room') :
  RoomManager.restoreRoom checkpoint = some room'
  := by
  have hcapacity : ¬checkpoint.capacity > 0xffffffffffffffff := by
    rw [gt_iff_lt, UInt64.lt_iff_toNat_lt]
    have := checkpoint.capacity.toNat_lt
    simp only [UInt64.reduceToNat]
    omega
  rw [RoomManager.restoreRoom, if_neg hcapacity]
  have hroomId : checkpoint.roomId = room.roomId := by
    by_contra hne
    rw [restoreCheckpoint, if_pos hne] at h
    cases h
  have hcap : checkpoint.capacity = room.capacity := by
    by_contra hne
    rw [restoreCheckpoint, if_neg (not_not.mpr hroomId), if_pos hne] at h
    cases h
  obtain ⟨roomId, capacity, nextPlayerId, stateMachine, gameState, tickId, members,
    pendingCommands⟩ := room
  cases hroomId
  cases hcap
  exact h

theorem intact_of_restoreCheckpoint {checkpoint : RoomCheckpoint}
    (h : room.restoreCheckpoint checkpoint = some room') :
  room'.Intact ∧ room'.pendingCommands = []
  := by
  have hrestore := restoreRoom_of_restoreCheckpoint h
  have hacc := (RoomManager.restoreRoom_isSome_iff checkpoint).mp
    (Option.isSome_of_eq_some hrestore)
  have hdesc := RoomManager.restoreRoom_describes hrestore
  have hpending := hdesc.pendingCommands
  refine ⟨⟨hacc.valid hdesc, ?_, ?_, ?_⟩, hpending⟩
  · intro k state hk
    obtain ⟨hmem, -⟩ := (hdesc.player k state).mp hk
    apply onBoard_iff.mpr (hacc.restorable state hmem).on_board
  · intro hne
    exact absurd hpending hne
  · rw [hpending]
    apply List.nodup_nil

theorem lookup_expire {c : ConnId} {k : UInt64} {member : Member}
    (hk : (room.expire c).members.lookup k = some member) :
  ∃ member', room.members.lookup k = some member' ∧ member'.playerId = member.playerId
    ∧ member'.playerName = member.playerName
  := by
  rw [Room.expire, AList.lookup_mapValues] at hk
  obtain ⟨member', hmember', rfl⟩ := Option.map_eq_some_iff.mp hk
  use member', hmember'
  rw [Member.expire]
  split <;> exact ⟨rfl, rfl⟩

theorem mem_expire {c : ConnId} {k : UInt64} :
  k ∈ (room.expire c).members ↔ k ∈ room.members
  := by
  rw [← AList.lookup_isSome, ← AList.lookup_isSome, Room.expire, AList.lookup_mapValues,
    Option.isSome_map]

theorem Intact.expire (h : room.Intact) (c : ConnId) :
  (room.expire c).Intact
  := by
  refine ⟨⟨?_, ?_, ?_, ?_, ?_, h.tick_eq_zero, h.game_key, h.game_empty, ?_⟩, h.on_board,
    h.running, h.pending_nodup⟩
  · intro k member hk
    obtain ⟨member', hmember', hid, -⟩ := lookup_expire hk
    rw [← hid, h.key hmember']
  · intro k hk
    apply h.id_ne_zero (mem_expire.mp hk)
  · intro k hk
    apply h.id_lt (mem_expire.mp hk)
  · intro k member hk
    obtain ⟨member', hmember', -, hname⟩ := lookup_expire hk
    rw [← hname]
    apply h.name_fits hmember'
  · rw [AList.size_eq_of_mem_iff fun k => mem_expire]
    apply h.size_le
  · intro hstate k
    rw [mem_expire]
    apply h.mem_game hstate

theorem Intact.reorder (h : room.Intact) (hreorder : room.Reordered room') :
  room'.Intact
  := by
  have hvalid := hreorder.valid h.toValid
  obtain ⟨members, players, -, hplayers, rfl⟩ := hreorder
  refine ⟨hvalid, ?_, h.running, h.pending_nodup⟩
  intro k state hk
  apply h.on_board k state ((hplayers k).trans hk)

/-- The state, the next id and the commands stay. -/
structure Keeps (room room' : Room) : Prop where
  stateMachine : room'.stateMachine = room.stateMachine
  nextPlayerId : room'.nextPlayerId = room.nextPlayerId
  pendingCommands : room'.pendingCommands = room.pendingCommands

theorem leave_keeps (h : room.Valid) (playerId : UInt64) :
  room.Keeps (room.leave playerId).2
  := by
  by_cases hmem : playerId ∈ room.members
  · rw [leave_of_mem h hmem]
    exact ⟨rfl, rfl, rfl⟩
  · rw [leave_of_notMem hmem]
    exact ⟨rfl, rfl, rfl⟩

theorem bindConnection_keeps (h : room.Valid) (playerId : UInt64) (connection : ConnectionPtr) :
  room.Keeps (room.bindConnection playerId connection).2
  := by
  obtain ⟨-, hsame⟩ | ⟨member, -, -, -, hbind⟩ := bindConnection_cases h playerId connection
  · rw [hsame]
    exact ⟨rfl, rfl, rfl⟩
  · rw [hbind]
    exact ⟨rfl, rfl, rfl⟩

theorem detachConnection_keeps (h : room.Valid) (playerId : UInt64)
    (connection : ConnectionPtr) :
  room.Keeps (room.detachConnection playerId connection).2
  := by
  obtain hsame | ⟨member, -, hdetach⟩ := detachConnection_cases h playerId connection
  · rw [hsame]
    exact ⟨rfl, rfl, rfl⟩
  · rw [hdetach]
    exact ⟨rfl, rfl, rfl⟩

theorem expire_keeps (room : Room) (c : ConnId) : room.Keeps (room.expire c) := ⟨rfl, rfl, rfl⟩

theorem Reordered.keeps (h : room.Reordered room') :
  room.Keeps room'
  := by
  obtain ⟨members, players, -, -, rfl⟩ := h
  exact ⟨rfl, rfl, rfl⟩

theorem Keeps.advances (h : room.Keeps room') :
  Advances room.stateMachine.state room'.stateMachine.state
  := by
  rw [h.stateMachine]
  exact .stay

end Room

/-! ### The system -/

/-- A room at work, with the ids that were given since it was last restored, and the commands
that were accepted since it was last restored or has last ticked. -/
structure RoomRun where
  room : Room
  given : List UInt64
  accepted : List Gamecommand

namespace RoomRun

open Room (Intact Advances)

/-- The operations of a room, and what happens between them. -/
inductive Label where
  | join (connection : ConnectionPtr) (playerName : Bytes)
  | leave (playerId : UInt64)
  | bindConnection (playerId : UInt64) (connection : ConnectionPtr)
  | detachConnection (playerId : UInt64) (connection : ConnectionPtr)
  | start (readyToStart : Bool)
  | finish (shouldFinish : Bool)
  | submit (command : Gamecommand)
  | tick
  | restoreCheckpoint (checkpoint : RoomCheckpoint)
  | destroyed (c : ConnId)
  | reorder

def join (run : RoomRun) (connection : ConnectionPtr) (playerName : Bytes) : RoomRun :=
  { run with
    room := (run.room.join connection playerName).2
    given :=
      if (run.room.join connection playerName).1.state = .success then
        run.given ++ [(run.room.join connection playerName).1.playerId]
      else
        run.given }

def submit (run : RoomRun) (command : Gamecommand) : RoomRun :=
  { run with
    room := (run.room.submit command).2
    accepted :=
      if (run.room.submit command).1 = .success then
        run.accepted ++ [command]
      else
        run.accepted }

def tick (run : RoomRun) : RoomRun :=
  { run with
    room := run.room.tick.2
    accepted := if run.room.tick.1.state = .success then [] else run.accepted }

def restoreCheckpoint (run : RoomRun) (checkpoint : RoomCheckpoint) : RoomRun :=
  match run.room.restoreCheckpoint checkpoint with
  | none => run
  | some room => ⟨room, [], []⟩

def Step (run : RoomRun) (label : Label) (run' : RoomRun) : Prop :=
  match label with
  | .join connection playerName => run' = run.join connection playerName
  | .leave playerId => run' = { run with room := (run.room.leave playerId).2 }
  | .bindConnection playerId connection =>
    run' = { run with room := (run.room.bindConnection playerId connection).2 }
  | .detachConnection playerId connection =>
    run' = { run with room := (run.room.detachConnection playerId connection).2 }
  | .start readyToStart => run' = { run with room := (run.room.start readyToStart).2 }
  | .finish shouldFinish => run' = { run with room := (run.room.finish shouldFinish).2 }
  | .submit command => run' = run.submit command
  | .tick => run' = run.tick
  | .restoreCheckpoint checkpoint => run' = run.restoreCheckpoint checkpoint
  | .destroyed c => run' = { run with room := run.room.expire c }
  | .reorder => ∃ room, run.room.Reordered room ∧ run' = { run with room }

def system : System RoomRun Label where
  Initial run := ∃ roomId capacity, run = ⟨.new roomId capacity, [], []⟩
  Step := Step

variable {run run' : RoomRun}

/-- The room is intact, no id was given twice or is to be given again, and while the room runs
the commands that wait are those that were accepted. -/
structure Inv (run : RoomRun) : Prop where
  intact : run.room.Intact
  given_nodup : run.given.Nodup
  given_lt : run.room.nextPlayerId ≠ 0 → ∀ id ∈ run.given, id < run.room.nextPlayerId
  pending : run.room.stateMachine.state = .running → run.room.pendingCommands = run.accepted
  idle : run.room.stateMachine.state = .waiting → run.accepted = []

theorem Inv.join (h : run.Inv) (connection : ConnectionPtr) (playerName : Bytes) :
  (run.join connection playerName).Inv
  := by
  have hintact := h.intact.join connection playerName
  rw [RoomRun.join]
  obtain ⟨hfail, hsame, -⟩ | ⟨-, hadmits, hjoin⟩ :=
    Room.join_cases h.intact.toValid connection playerName
  · rw [hsame, if_neg hfail]
    exact h
  · rw [hjoin] at hintact ⊢
    simp only [if_true]
    refine ⟨hintact, ?_, ?_, h.pending, h.idle⟩
    · apply h.given_nodup.append (List.nodup_singleton _)
      rw [List.disjoint_singleton]
      intro hmem
      exact absurd (h.given_lt hadmits.next_ne_zero _ hmem) (UInt64.lt_irrefl _)
    · intro hnext' id hid
      apply Room.lt_next_add_one _ hnext'
      rcases List.mem_append.mp hid with hid | hid
      · apply UInt64.le_of_lt (h.given_lt hadmits.next_ne_zero id hid)
      · rw [List.mem_singleton.mp hid]
        apply UInt64.le_refl _

theorem Inv.keep (h : run.Inv) {room : Room} (hintact : room.Intact)
    (hkeeps : run.room.Keeps room) :
  Inv { run with room }
  := by
  refine ⟨hintact, h.given_nodup, ?_, ?_, ?_⟩
  · rw [hkeeps.nextPlayerId]
    apply h.given_lt
  · rw [hkeeps.stateMachine, hkeeps.pendingCommands]
    apply h.pending
  · rw [hkeeps.stateMachine]
    apply h.idle

theorem Inv.start (h : run.Inv) (readyToStart : Bool) :
  Inv { run with room := (run.room.start readyToStart).2 }
  := by
  have hintact := h.intact.start readyToStart
  obtain hsame | ⟨hsuccess, hstart⟩ := Room.start_cases run.room readyToStart
  · rw [hsame]
    exact h
  · rw [hstart] at hintact ⊢
    obtain ⟨hwaiting, hrunning, heq, -, -, -⟩ := Room.start_spec h.intact.toValid hsuccess
    have hnext : run.room.started.nextPlayerId = run.room.nextPlayerId := by rw [heq]
    have hpending : run.room.started.pendingCommands = [] := by rw [heq]
    refine ⟨hintact, h.given_nodup, ?_, ?_, ?_⟩
    · rw [hnext]
      apply h.given_lt
    · intro _
      rw [hpending, h.idle hwaiting]
    · rw [hrunning]
      rintro ⟨⟩

theorem Inv.finish (h : run.Inv) (shouldFinish : Bool) :
  Inv { run with room := (run.room.finish shouldFinish).2 }
  := by
  have hintact := h.intact.finish shouldFinish
  obtain hsame | ⟨-, hfinish⟩ := Room.finish_cases run.room shouldFinish
  · rw [hsame]
    exact h
  · rw [hfinish] at hintact ⊢
    refine ⟨hintact, h.given_nodup, h.given_lt, ?_, ?_⟩ <;> rintro ⟨⟩

theorem Inv.submit (h : run.Inv) (command : Gamecommand) :
  (run.submit command).Inv
  := by
  have hintact := h.intact.submit command
  rw [RoomRun.submit]
  obtain ⟨hfail, hsame, -⟩ | ⟨hrunning, -, -, hsubmit⟩ := Room.submit_cases run.room command
  · rw [hsame, if_neg hfail]
    exact h
  · rw [hsubmit] at hintact ⊢
    rw [if_pos rfl]
    refine ⟨hintact, h.given_nodup, h.given_lt, ?_, ?_⟩
    · intro _
      dsimp only
      rw [h.pending hrunning]
    · dsimp only
      rw [hrunning]
      rintro ⟨⟩

theorem tick_state (room : Room) :
  room.tick.1.state = .success ↔ room.stateMachine.state = .running
  := by
  rw [Room.tick]
  split
  · next hstate => simp [hstate]
  · next hstate => simpa using hstate

theorem Inv.tick (h : run.Inv) :
  run.tick.Inv
  := by
  have hintact := h.intact.tick
  have hstate := tick_state run.room
  rw [RoomRun.tick]
  obtain hsame | ⟨hrunning, htick⟩ := Room.tick_cases run.room
  · rw [hsame]
    split
    · next hsuccess =>
      -- A tick of a running room counts on.
      have hrunning := hstate.mp hsuccess
      have htickId := congrArg Room.tickId hsame
      rw [Room.tick, if_neg (not_not.mpr hrunning)] at htickId
      dsimp only at htickId
      rw [UInt64.add_eq_left] at htickId
      cases htickId
    · exact h
  · rw [htick] at hintact ⊢
    rw [if_pos (hstate.mpr hrunning)]
    exact ⟨hintact, h.given_nodup, h.given_lt, fun _ => rfl, fun _ => rfl⟩

theorem Inv.restoreCheckpoint (h : run.Inv) (checkpoint : RoomCheckpoint) :
  (run.restoreCheckpoint checkpoint).Inv
  := by
  rw [RoomRun.restoreCheckpoint]
  split
  · exact h
  · next room hroom =>
    obtain ⟨hintact, hpending⟩ := Room.intact_of_restoreCheckpoint hroom
    refine ⟨hintact, List.nodup_nil, ?_, fun _ => hpending, fun _ => rfl⟩
    rintro - id ⟨⟩

theorem inv_of_step {label : Label} (h : run.Inv) (hstep : run.Step label run') :
  run'.Inv
  := by
  have hvalid := h.intact.toValid
  cases label with
  | join connection playerName =>
    rw [show run' = _ from hstep]
    apply h.join connection playerName
  | leave playerId =>
    rw [show run' = _ from hstep]
    apply h.keep (h.intact.leave playerId) (Room.leave_keeps hvalid playerId)
  | bindConnection playerId connection =>
    rw [show run' = _ from hstep]
    apply h.keep (h.intact.bindConnection playerId connection)
      (Room.bindConnection_keeps hvalid playerId connection)
  | detachConnection playerId connection =>
    rw [show run' = _ from hstep]
    apply h.keep (h.intact.detachConnection playerId connection)
      (Room.detachConnection_keeps hvalid playerId connection)
  | start readyToStart =>
    rw [show run' = _ from hstep]
    apply h.start readyToStart
  | finish shouldFinish =>
    rw [show run' = _ from hstep]
    apply h.finish shouldFinish
  | submit command =>
    rw [show run' = _ from hstep]
    apply h.submit command
  | tick =>
    rw [show run' = _ from hstep]
    apply h.tick
  | restoreCheckpoint checkpoint =>
    rw [show run' = _ from hstep]
    apply h.restoreCheckpoint checkpoint
  | destroyed c =>
    rw [show run' = _ from hstep]
    apply h.keep (h.intact.expire c) (run.room.expire_keeps c)
  | reorder =>
    obtain ⟨room, hreorder, rfl⟩ := hstep
    apply h.keep (h.intact.reorder hreorder) hreorder.keeps

theorem inv_of_reachable (h : system.Reachable run) : run.Inv := by
  apply h.invariant
  · rintro run ⟨roomId, capacity, rfl⟩
    exact ⟨Room.new_intact roomId capacity, List.nodup_nil, by simp, fun _ => rfl, fun _ => rfl⟩
  · rintro run label run' hrun - hstep
    apply inv_of_step hrun hstep

/-- Two players have joined a room for two, and it was started. -/
def paired : RoomRun :=
  let run := (RoomRun.mk (.new 1 2) [] []).join (some 7) [65] |>.join (some 8) [66]
  { run with room := (run.room.start true).2 }

theorem paired_reachable :
  system.Reachable paired
  := by
  apply System.ReachableBy.step (ℓ := .start true) _ trivial rfl
  apply System.ReachableBy.step (ℓ := .join (some 8) [66]) _ trivial rfl
  apply System.ReachableBy.step (ℓ := .join (some 7) [65]) _ trivial rfl
  exact .initial ⟨1, 2, rfl⟩

end RoomRun

end RoomServer
