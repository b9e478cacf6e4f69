import RoomServer.Service.RoomService

/-!
# Restoring from a checkpoint

A checkpoint is accepted under conditions on its data alone: `RoomCheckpoint.Acceptable` for a
room, `RoomsAcceptable` for a list of rooms and `SessionsAcceptable` for a list of sessions.
What is restored is described by the data: `RoomCheckpoint.Describes`, `RoomsDescribe` and
`SessionsDescribe` compare a checkpoint with live objects, field by field.
-/

namespace RoomServer

/-! ### Rooms -/

namespace RoomCheckpoint

/-- The conditions under which a room is restored. -/
structure Acceptable (checkpoint : RoomCheckpoint) : Prop where
  members_le : checkpoint.members.length ≤ checkpoint.capacity.toNat
  ids_nodup : (checkpoint.members.map fun member => member.playerId).Nodup
  id_ne_zero : ∀ member ∈ checkpoint.members, member.playerId ≠ 0
  name_fits : ∀ member ∈ checkpoint.members, Protocol.NameFits member.playerName
  id_lt : checkpoint.nextPlayerId ≠ 0 →
    ∀ member ∈ checkpoint.members, member.playerId < checkpoint.nextPlayerId
  waiting : checkpoint.state = .waiting → checkpoint.tickId = 0 ∧ checkpoint.gameStates = []
  game_length : checkpoint.state ≠ .waiting →
    checkpoint.gameStates.length = checkpoint.members.length
  game_member : checkpoint.state ≠ .waiting → ∀ state ∈ checkpoint.gameStates,
    ∃ member ∈ checkpoint.members, member.playerId = state.playerId
  game_le : checkpoint.gameStates.length ≤ Gamestate.maxPlayers
  game_nodup : (checkpoint.gameStates.map fun state => state.playerId).Nodup
  restorable : ∀ state ∈ checkpoint.gameStates, Gamestate.Restorable state

/-- The room has the data of the checkpoint, no connections and no commands. -/
structure Describes (checkpoint : RoomCheckpoint) (room : Room) : Prop where
  roomId : room.roomId = checkpoint.roomId
  capacity : room.capacity = checkpoint.capacity
  nextPlayerId : room.nextPlayerId = checkpoint.nextPlayerId
  state : room.stateMachine.state = checkpoint.state
  tickId : room.tickId = checkpoint.tickId
  pendingCommands : room.pendingCommands = []
  member : ∀ k member, room.members.lookup k = some member
    ↔ ∃ m ∈ checkpoint.members, m.playerId = k ∧ member = ⟨k, m.playerName, none⟩
  player : ∀ k state, room.gameState.players.lookup k = some state
    ↔ state ∈ checkpoint.gameStates ∧ state.playerId = k

end RoomCheckpoint

namespace Room

theorem restoreMember_eq_some_iff {m : CheckpointMember} {member : Member} :
  restoreMember m = some member
    ↔ (m.playerId ≠ 0 ∧ Protocol.NameFits m.playerName)
      ∧ member = ⟨m.playerId, m.playerName, none⟩
  := by
  rw [restoreMember]
  split
  · next h => simp [h]
  · next hid =>
    split
    · next hname => simp [hname]
    · next hname =>
      rw [Option.some.injEq, eq_comm]
      simp [hid, not_not.mp hname]

theorem restoreState_eq_some_iff {checkpoint : RoomCheckpoint} {machine : Roomstatemachine} :
  restoreState checkpoint = some machine
    ↔ (checkpoint.state = .waiting → checkpoint.tickId = 0 ∧ checkpoint.gameStates = [])
      ∧ machine = ⟨checkpoint.state⟩
  := by
  rw [restoreState]
  cases checkpoint.state with
  | waiting =>
    dsimp only
    split
    · next h => simp [h]
    · next h =>
      split
      · next h' => simp [h']
      · next h' =>
        rw [Option.some.injEq, eq_comm]
        simp [Roomstatemachine.new, not_not.mp h, not_not.mp h']
  | running => simp [Roomstatemachine.start, Roomstatemachine.new, eq_comm]
  | finished =>
    simp [Roomstatemachine.start, Roomstatemachine.finish, Roomstatemachine.new, eq_comm]

theorem ne_waiting_iff (state : Roomstatemachine.States) :
  state ≠ .waiting ↔ state = .running ∨ state = .finished
  := by
  cases state <;> simp

end Room

namespace RoomManager

variable {checkpoint : RoomCheckpoint} {room : Room}

/-- What has to be the case for a room to be restored, and the restored room. -/
theorem restoreRoom_eq_some_iff :
  restoreRoom checkpoint = some room
    ↔ checkpoint.members.length ≤ checkpoint.capacity.toNat
      ∧ ∃ members, AList.enter (fun member => member.playerId) Room.restoreMember
          checkpoint.members ∅ = some members
        ∧ (checkpoint.nextPlayerId ≠ 0 → ∀ k ∈ members, k < checkpoint.nextPlayerId)
        ∧ (checkpoint.state = .waiting → checkpoint.tickId = 0 ∧ checkpoint.gameStates = [])
        ∧ (checkpoint.state ≠ .waiting → checkpoint.gameStates.length = members.size
          ∧ ∀ state ∈ checkpoint.gameStates, state.playerId ∈ members)
        ∧ ∃ gameState, Gamestate.restore checkpoint.gameStates = some gameState
          ∧ room = ⟨checkpoint.roomId, checkpoint.capacity, checkpoint.nextPlayerId,
            ⟨checkpoint.state⟩, gameState, checkpoint.tickId, members, []⟩
  := by
  have hcapacity : ¬checkpoint.capacity > 0xffffffffffffffff := by
    rw [gt_iff_lt, UInt64.lt_iff_toNat_lt]
    have := checkpoint.capacity.toNat_lt
    simp only [UInt64.reduceToNat]
    omega
  rw [restoreRoom, if_neg hcapacity, Room.restoreCheckpoint, if_neg (by simp [Room.new]),
    if_neg (by simp [Room.new])]
  have hnew : (Room.new checkpoint.roomId checkpoint.capacity).capacity.toNat
      = checkpoint.capacity.toNat := rfl
  by_cases hlen : checkpoint.members.length ≤ checkpoint.capacity.toNat
  · rw [if_neg (by omega)]
    simp only [Option.bind_eq_bind, Option.bind_eq_some_iff, hlen, true_and]
    apply exists_congr
    intro members
    apply and_congr_right
    intro _
    have hnext : (checkpoint.nextPlayerId ≠ 0 ∧
          ∃ entry ∈ members.entries, checkpoint.nextPlayerId ≤ entry.1)
        ↔ ¬(checkpoint.nextPlayerId ≠ 0 → ∀ k ∈ members, k < checkpoint.nextPlayerId) := by
      simp only [AList.mem_iff_lookup, Classical.not_imp, not_forall, UInt64.not_lt]
      apply and_congr_right
      intro _
      constructor
      · rintro ⟨⟨k, member⟩, hentry, hle⟩
        exact ⟨k, ⟨member, AList.mem_lookup_iff.mpr hentry⟩, hle⟩
      · rintro ⟨k, ⟨member, hmember⟩, hle⟩
        exact ⟨⟨k, member⟩, AList.mem_lookup_iff.mp hmember, hle⟩
    have hgame : ((checkpoint.state = .running ∨ checkpoint.state = .finished) ∧
          (checkpoint.gameStates.length ≠ members.size ∨
            ∃ state ∈ checkpoint.gameStates, state.playerId ∉ members))
        ↔ ¬(checkpoint.state ≠ .waiting → checkpoint.gameStates.length = members.size
          ∧ ∀ state ∈ checkpoint.gameStates, state.playerId ∈ members) := by
      rw [← Room.ne_waiting_iff, Classical.not_imp]
      apply and_congr_right
      intro _
      rw [not_and_or]
      simp
    by_cases hids : checkpoint.nextPlayerId ≠ 0 → ∀ k ∈ members, k < checkpoint.nextPlayerId
    · rw [if_neg (by rw [hnext, not_not]; exact hids)]
      simp only [Option.bind_eq_some_iff, Room.restoreState_eq_some_iff]
      constructor
      · rintro ⟨machine, ⟨hwaiting, rfl⟩, hrest⟩
        by_cases hg : checkpoint.state ≠ .waiting →
            checkpoint.gameStates.length = members.size
              ∧ ∀ state ∈ checkpoint.gameStates, state.playerId ∈ members
        · rw [if_neg (by rw [hgame, not_not]; exact hg)] at hrest
          obtain ⟨gameState, hrestore, heq⟩ := Option.bind_eq_some_iff.mp hrest
          cases heq
          exact ⟨hids, hwaiting, hg, gameState, hrestore, rfl⟩
        · rw [if_pos (hgame.mpr hg)] at hrest
          cases hrest
      · rintro ⟨-, hwaiting, hg, gameState, hrestore, rfl⟩
        refine ⟨⟨checkpoint.state⟩, ⟨hwaiting, rfl⟩, ?_⟩
        rw [if_neg (by rw [hgame, not_not]; exact hg), hrestore]
        rfl
    · rw [if_pos (hnext.mpr hids)]
      simp [hids]
  · rw [if_pos (by omega)]
    simp [hlen]

/-- A room is restored exactly when its checkpoint is acceptable. -/
theorem restoreRoom_isSome_iff (checkpoint : RoomCheckpoint) :
  (restoreRoom checkpoint).isSome ↔ checkpoint.Acceptable
  := by
  have hmake : ∀ m, (Room.restoreMember m).isSome
      ↔ m.playerId ≠ 0 ∧ Protocol.NameFits m.playerName := by
    intro m
    rw [Option.isSome_iff_exists]
    simp [Room.restoreMember_eq_some_iff]
  have hmem : ∀ {members : UnorderedMap UInt64 Room.Member},
      AList.enter (fun member => member.playerId) Room.restoreMember checkpoint.members ∅
        = some members → ∀ k, k ∈ members ↔ ∃ m ∈ checkpoint.members, m.playerId = k := by
    intro members henter k
    have hsome := (AList.enter_isSome_iff.mp (by rw [henter]; rfl)).2.2
    rw [AList.mem_iff_lookup]
    simp only [AList.lookup_enter henter, AList.lookup_empty, reduceCtorEq, false_or]
    constructor
    · rintro ⟨_, m, hm, hk, -⟩
      use m, hm
    · rintro ⟨m, hm, hk⟩
      obtain ⟨member, hmember⟩ := Option.isSome_iff_exists.mp (hsome m hm)
      use member, m, hm
  rw [Option.isSome_iff_exists]
  simp only [restoreRoom_eq_some_iff]
  constructor
  · rintro ⟨room, hlen, members, henter, hids, hwaiting, hg, gameState, hrestore, rfl⟩
    obtain ⟨hnodup, -, hsome⟩ := AList.enter_isSome_iff.mp (by rw [henter]; rfl)
    obtain ⟨hle, hgnodup, hgood⟩ := Gamestate.restore_isSome_iff.mp (by rw [hrestore]; rfl)
    have hsize := AList.size_enter henter
    rw [AList.size_empty, Nat.zero_add] at hsize
    refine ⟨hlen, hnodup, ?_, ?_, ?_, hwaiting, ?_, ?_, hle, hgnodup, hgood⟩
    · intro m hm
      apply ((hmake m).mp (hsome m hm)).1
    · intro m hm
      apply ((hmake m).mp (hsome m hm)).2
    · intro hnext m hm
      apply hids hnext _ ((hmem henter _).mpr ⟨m, hm, rfl⟩)
    · intro hstate
      rw [(hg hstate).1, hsize]
    · intro hstate state hmember
      apply (hmem henter _).mp ((hg hstate).2 state hmember)
  · intro h
    have henter : (AList.enter (fun member => member.playerId) Room.restoreMember
        checkpoint.members ∅).isSome := by
      apply AList.enter_isSome_iff.mpr
      refine ⟨h.ids_nodup, by simp, ?_⟩
      intro m hm
      apply (hmake m).mpr ⟨h.id_ne_zero m hm, h.name_fits m hm⟩
    have hrestore := Gamestate.restore_isSome_iff.mpr ⟨h.game_le, h.game_nodup, h.restorable⟩
    obtain ⟨members, henter⟩ := Option.isSome_iff_exists.mp henter
    obtain ⟨gameState, hrestore⟩ := Option.isSome_iff_exists.mp hrestore
    have hsize := AList.size_enter henter
    rw [AList.size_empty, Nat.zero_add] at hsize
    refine ⟨_, h.members_le, members, henter, ?_, h.waiting, ?_, gameState, hrestore, rfl⟩
    · intro hnext k hk
      obtain ⟨m, hm, rfl⟩ := (hmem henter k).mp hk
      apply h.id_lt hnext m hm
    · intro hstate
      rw [hsize]
      use h.game_length hstate
      intro state hmember
      apply (hmem henter _).mpr (h.game_member hstate state hmember)

/-- The restored room is the one the checkpoint describes. -/
theorem restoreRoom_describes (h : restoreRoom checkpoint = some room) :
  checkpoint.Describes room
  := by
  obtain ⟨-, members, henter, -, -, -, gameState, hrestore, rfl⟩ := restoreRoom_eq_some_iff.mp h
  have hsome := (AList.enter_isSome_iff.mp (by rw [henter]; rfl)).2.2
  refine ⟨rfl, rfl, rfl, rfl, rfl, rfl, ?_, ?_⟩
  · intro k member
    dsimp only
    rw [AList.lookup_enter henter]
    simp only [AList.lookup_empty, reduceCtorEq, false_or, Room.restoreMember_eq_some_iff]
    constructor
    · rintro ⟨m, hm, rfl, -, rfl⟩
      exact ⟨m, hm, rfl, rfl⟩
    · rintro ⟨m, hm, rfl, rfl⟩
      obtain ⟨member, hmember⟩ := Option.isSome_iff_exists.mp (hsome m hm)
      exact ⟨m, hm, rfl, (Room.restoreMember_eq_some_iff.mp hmember).1, rfl⟩
  · intro k state
    apply Gamestate.lookup_restore hrestore

end RoomManager

namespace RoomCheckpoint

variable {checkpoint : RoomCheckpoint} {room : Room}

theorem Describes.mem_iff (h : checkpoint.Describes room) (k : UInt64) :
  k ∈ room.members ↔ ∃ m ∈ checkpoint.members, m.playerId = k
  := by
  rw [AList.mem_iff_lookup]
  simp only [h.member]
  constructor
  · rintro ⟨_, m, hm, hk, -⟩
    use m, hm
  · rintro ⟨m, hm, hk⟩
    exact ⟨_, m, hm, hk, rfl⟩

theorem Describes.mem_game_iff (h : checkpoint.Describes room) (k : UInt64) :
  k ∈ room.gameState.players ↔ ∃ state ∈ checkpoint.gameStates, state.playerId = k
  := by
  rw [AList.mem_iff_lookup]
  simp only [h.player]

/-- A room that an acceptable checkpoint describes is valid. -/
theorem Acceptable.valid (hacc : checkpoint.Acceptable) (h : checkpoint.Describes room) :
  room.Valid
  := by
  constructor
  · intro k member hk
    obtain ⟨m, -, -, rfl⟩ := (h.member k member).mp hk
    rfl
  · intro k hk
    obtain ⟨m, hm, rfl⟩ := (h.mem_iff k).mp hk
    apply hacc.id_ne_zero m hm
  · intro k hk hnext
    rw [h.nextPlayerId] at hnext ⊢
    obtain ⟨m, hm, rfl⟩ := (h.mem_iff k).mp hk
    apply hacc.id_lt hnext m hm
  · intro k member hk
    obtain ⟨m, hm, -, rfl⟩ := (h.member k member).mp hk
    apply hacc.name_fits m hm
  · rw [h.capacity]
    apply Nat.le_trans _ hacc.members_le
    have hlen : (checkpoint.members.map fun m => m.playerId).length
        = checkpoint.members.length := List.length_map _
    rw [← AList.length_keys, ← hlen]
    apply (room.members.keys_nodup.subperm _).length_le
    intro k hk
    obtain ⟨m, hm, rfl⟩ := (h.mem_iff k).mp hk
    apply List.mem_map_of_mem hm
  · intro hstate
    rw [h.state] at hstate
    rw [h.tickId]
    apply (hacc.waiting hstate).1
  · intro k state hk
    apply ((h.player k state).mp hk).2
  · intro hstate k hk
    rw [h.state] at hstate
    obtain ⟨state, hmem, -⟩ := (h.mem_game_iff k).mp hk
    rw [(hacc.waiting hstate).2] at hmem
    cases hmem
  · intro hstate k
    rw [h.state] at hstate
    -- The ids of the game are ids of members, and there are as many of the one as of the other.
    have hsub : (checkpoint.gameStates.map fun state => state.playerId).Subperm
        (checkpoint.members.map fun member => member.playerId) := by
      apply hacc.game_nodup.subperm
      intro k hk
      obtain ⟨state, hmem, rfl⟩ := List.mem_map.mp hk
      obtain ⟨m, hm, hid⟩ := hacc.game_member hstate state hmem
      rw [← hid]
      apply List.mem_map_of_mem hm
    have hperm := hsub.perm_of_length_le (by
      rw [List.length_map, List.length_map, hacc.game_length hstate])
    rw [h.mem_iff, h.mem_game_iff, ← List.mem_map, ← List.mem_map]
    apply hperm.mem_iff

end RoomCheckpoint

/-! ### The table of rooms -/

/-- The conditions under which a list of rooms is restored. -/
structure RoomsAcceptable (checkpoints : List RoomCheckpoint) : Prop where
  ids_nodup : (checkpoints.map fun checkpoint => checkpoint.roomId).Nodup
  acceptable : ∀ checkpoint ∈ checkpoints, checkpoint.Acceptable

/-- The rooms of the table are the ones of the checkpoints. -/
def RoomsDescribe (checkpoints : List RoomCheckpoint) (manager : RoomManager) : Prop :=
  ∀ r, (∀ room, manager.rooms.lookup r = some room →
      ∃ checkpoint ∈ checkpoints, checkpoint.roomId = r ∧ checkpoint.Describes room)
    ∧ ∀ checkpoint ∈ checkpoints, checkpoint.roomId = r →
      ∃ room, manager.rooms.lookup r = some room ∧ checkpoint.Describes room

namespace RoomManager

variable {checkpoints : List RoomCheckpoint} {manager : RoomManager}

theorem restoreCheckpoint_isSome_iff (checkpoints : List RoomCheckpoint) :
  (restoreCheckpoint checkpoints).isSome ↔ RoomsAcceptable checkpoints
  := by
  rw [restoreCheckpoint, Option.isSome_map, AList.enter_isSome_iff]
  simp only [restoreRoom_isSome_iff]
  constructor
  · rintro ⟨hnodup, -, hacc⟩
    use hnodup
  · rintro ⟨hnodup, hacc⟩
    exact ⟨hnodup, by simp, hacc⟩

theorem lookup_restoreCheckpoint (h : restoreCheckpoint checkpoints = some manager) {r : UInt32}
    {room : Room} :
  manager.rooms.lookup r = some room
    ↔ ∃ checkpoint ∈ checkpoints, checkpoint.roomId = r ∧ restoreRoom checkpoint = some room
  := by
  obtain ⟨rooms, henter, rfl⟩ := Option.map_eq_some_iff.mp h
  dsimp only
  rw [AList.lookup_enter henter]
  simp

theorem restoreCheckpoint_describe (h : restoreCheckpoint checkpoints = some manager) :
  RoomsDescribe checkpoints manager
  := by
  have hacc := (restoreCheckpoint_isSome_iff checkpoints).mp (by rw [h]; rfl)
  intro r
  simp only [lookup_restoreCheckpoint h]
  constructor
  · rintro room ⟨checkpoint, hmem, hr, hroom⟩
    exact ⟨checkpoint, hmem, hr, restoreRoom_describes hroom⟩
  · intro checkpoint hmem hr
    obtain ⟨room, hroom⟩ := Option.isSome_iff_exists.mp
      ((restoreRoom_isSome_iff checkpoint).mpr (hacc.acceptable checkpoint hmem))
    exact ⟨room, ⟨checkpoint, hmem, hr, hroom⟩, restoreRoom_describes hroom⟩

theorem restoreCheckpoint_valid (h : restoreCheckpoint checkpoints = some manager) :
  manager.Valid
  := by
  have hacc := (restoreCheckpoint_isSome_iff checkpoints).mp (by rw [h]; rfl)
  have hdescribe := restoreCheckpoint_describe h
  constructor
  · intro r room hroom
    obtain ⟨checkpoint, -, hr, hdesc⟩ := (hdescribe r).1 room hroom
    rw [hdesc.roomId, hr]
  · intro r room hroom
    obtain ⟨checkpoint, hmem, -, hdesc⟩ := (hdescribe r).1 room hroom
    apply (hacc.acceptable checkpoint hmem).valid hdesc

/-- The members of a restored table. -/
theorem member_restoreCheckpoint (h : restoreCheckpoint checkpoints = some manager) {r : UInt32}
    {p : UInt64} {member : Room.Member} :
  manager.member r p = some member
    ↔ ∃ checkpoint ∈ checkpoints, checkpoint.roomId = r
      ∧ ∃ m ∈ checkpoint.members, m.playerId = p ∧ member = ⟨p, m.playerName, none⟩
  := by
  have hdescribe := restoreCheckpoint_describe h
  rw [member_eq_some_iff]
  constructor
  · rintro ⟨room, hroom, hmember⟩
    obtain ⟨checkpoint, hmem, hr, hdesc⟩ := (hdescribe r).1 room hroom
    exact ⟨checkpoint, hmem, hr, (hdesc.member p member).mp hmember⟩
  · rintro ⟨checkpoint, hmem, hr, hm⟩
    obtain ⟨room, hroom, hdesc⟩ := (hdescribe r).2 checkpoint hmem hr
    exact ⟨room, hroom, (hdesc.member p member).mpr hm⟩

end RoomManager

/-! ### Sessions -/

/-- The token is one the server could have generated. -/
def TokenFits (token : Bytes) : Prop :=
  token.length = SessionManager.tokenSize ∧ token.all SessionManager.isLowerHex

/-- The conditions under which a list of sessions is restored. -/
structure SessionsAcceptable (checkpoints : List SessionCheckpoint) : Prop where
  token_fits : ∀ checkpoint ∈ checkpoints, TokenFits checkpoint.token
  tokens_nodup : (checkpoints.map fun checkpoint => checkpoint.token).Nodup
  identities_nodup :
    (checkpoints.map fun checkpoint => (checkpoint.roomId, checkpoint.playerId)).Nodup

namespace SessionManager

variable {deadline : Int} {checkpoints : List SessionCheckpoint}
  {sessions sessions' : UnorderedMap Bytes Session}

/-- No session claims the place of the checkpoint. -/
def PlaceFree (sessions : UnorderedMap Bytes Session) (checkpoint : SessionCheckpoint) : Prop :=
  ∀ t session, sessions.lookup t = some session →
    ¬(session.roomId = checkpoint.roomId ∧ session.playerId = checkpoint.playerId)

/-- The session of the checkpoint can be entered. -/
structure Admits (sessions : UnorderedMap Bytes Session) (checkpoint : SessionCheckpoint) :
    Prop where
  token_fits : TokenFits checkpoint.token
  new : checkpoint.token ∉ sessions
  free : PlaceFree sessions checkpoint

/-- The sessions of the checkpoints can be entered one after the other. -/
structure AdmitsAll (sessions : UnorderedMap Bytes Session)
    (checkpoints : List SessionCheckpoint) : Prop where
  acceptable : SessionsAcceptable checkpoints
  new : ∀ checkpoint ∈ checkpoints, checkpoint.token ∉ sessions
  free : ∀ checkpoint ∈ checkpoints, PlaceFree sessions checkpoint

variable {checkpoint : SessionCheckpoint}

theorem restoreSessions_of_admits (h : Admits sessions checkpoint) :
  restoreSessions deadline (checkpoint :: checkpoints) sessions
    = restoreSessions deadline checkpoints (sessions.insert checkpoint.token
      (.newOffline checkpoint.roomId checkpoint.playerId deadline))
  := by
  have hfree : ¬∃ session ∈ sessions.values,
      session.roomId = checkpoint.roomId ∧ session.playerId = checkpoint.playerId := by
    rintro ⟨session, hsession, hsame⟩
    obtain ⟨t, ht⟩ := AList.mem_values.mp hsession
    apply h.free t session ht hsame
  rw [restoreSessions, if_neg (not_not.mpr h.token_fits.1), if_neg (by simp [h.token_fits.2]),
    if_neg h.new, if_neg hfree, AList.emplace_of_notMem h.new]

/-- A checkpoint that cannot be entered fails the restore. -/
theorem admits_of_isSome
    (h : (restoreSessions deadline (checkpoint :: checkpoints) sessions).isSome) :
  Admits sessions checkpoint
  := by
  rw [restoreSessions] at h
  split at h
  · cases h
  next hlen =>
  split at h
  · cases h
  next hhex =>
  split at h
  · cases h
  next hnew =>
  split at h
  · cases h
  next hfree =>
  refine ⟨⟨not_not.mp hlen, by simpa using hhex⟩, hnew, ?_⟩
  intro t session ht hsame
  apply hfree ⟨session, AList.mem_values.mpr ⟨t, ht⟩, hsame⟩

/-- A place is free behind a new session when it was before, and the session claims another. -/
theorem placeFree_insert {token : Bytes} (hnew : token ∉ sessions) (session : Session) :
  PlaceFree (sessions.insert token session) checkpoint
    ↔ PlaceFree sessions checkpoint
      ∧ ¬(session.roomId = checkpoint.roomId ∧ session.playerId = checkpoint.playerId)
  := by
  constructor
  · intro h
    refine ⟨?_, h token session (AList.lookup_insert sessions)⟩
    intro t session' ht
    apply h t session'
    rw [AList.lookup_insert_eq_ite, if_neg]
    · exact ht
    · rintro rfl
      apply hnew (AList.mem_iff_lookup.mpr ⟨session', ht⟩)
  · rintro ⟨hfree, hother⟩ t session' ht
    rw [AList.lookup_insert_eq_ite] at ht
    split at ht
    · cases ht
      exact hother
    · apply hfree t session' ht

theorem AdmitsAll.head (h : AdmitsAll sessions (checkpoint :: checkpoints)) :
  Admits sessions checkpoint
  where
  token_fits := h.acceptable.token_fits checkpoint List.mem_cons_self
  new := h.new checkpoint List.mem_cons_self
  free := h.free checkpoint List.mem_cons_self

/-- Behind the first of them the others can still be entered. -/
theorem AdmitsAll.tail (h : AdmitsAll sessions (checkpoint :: checkpoints)) (deadline : Int) :
  AdmitsAll (sessions.insert checkpoint.token
    (.newOffline checkpoint.roomId checkpoint.playerId deadline)) checkpoints
  := by
  have htokens := h.acceptable.tokens_nodup
  have hidentities := h.acceptable.identities_nodup
  rw [List.map_cons, List.nodup_cons] at htokens hidentities
  refine ⟨⟨?_, htokens.2, hidentities.2⟩, ?_, ?_⟩
  · intro x hx
    apply h.acceptable.token_fits x (List.mem_cons_of_mem _ hx)
  · intro x hx hin
    rcases (AList.mem_insert sessions).mp hin with heq | hin
    · apply htokens.1
      rw [← heq]
      apply List.mem_map_of_mem hx
    · apply h.new x (List.mem_cons_of_mem _ hx) hin
  · intro x hx
    rw [placeFree_insert h.head.new]
    use h.free x (List.mem_cons_of_mem _ hx)
    rintro ⟨hr, hp⟩
    apply hidentities.1
    apply List.mem_map.mpr ⟨x, hx, _⟩
    rw [← hr, ← hp]
    rfl

/-- One session can be entered, and the others behind it. -/
theorem Admits.cons (h : Admits sessions checkpoint)
    (hrest : AdmitsAll (sessions.insert checkpoint.token
      (.newOffline checkpoint.roomId checkpoint.playerId deadline)) checkpoints) :
  AdmitsAll sessions (checkpoint :: checkpoints)
  := by
  have hfree := fun x hx => (placeFree_insert h.new _).mp (hrest.free x hx)
  refine ⟨⟨?_, ?_, ?_⟩, ?_, ?_⟩
  · exact List.forall_mem_cons.mpr ⟨h.token_fits, hrest.acceptable.token_fits⟩
  · rw [List.map_cons, List.nodup_cons]
    refine ⟨?_, hrest.acceptable.tokens_nodup⟩
    intro hin
    obtain ⟨x, hx, heq⟩ := List.mem_map.mp hin
    apply hrest.new x hx
    rw [AList.mem_insert]
    exact .inl heq
  · rw [List.map_cons, List.nodup_cons]
    refine ⟨?_, hrest.acceptable.identities_nodup⟩
    intro hin
    obtain ⟨x, hx, heq⟩ := List.mem_map.mp hin
    rw [Prod.mk.injEq] at heq
    apply (hfree x hx).2 ⟨heq.1.symm, heq.2.symm⟩
  · refine List.forall_mem_cons.mpr ⟨h.new, ?_⟩
    intro x hx hin
    apply hrest.new x hx (AList.mem_insert sessions |>.mpr (.inr hin))
  · exact List.forall_mem_cons.mpr ⟨h.free, fun x hx => (hfree x hx).1⟩

/-- A list of sessions is entered when its tokens fit and are new and distinct, and so are the
places they claim. -/
theorem restoreSessions_isSome_iff :
  (restoreSessions deadline checkpoints sessions).isSome ↔ AdmitsAll sessions checkpoints
  := by
  induction checkpoints generalizing sessions with
  | nil =>
    simp only [restoreSessions, Option.isSome_some, true_iff]
    exact ⟨⟨by simp, by simp, by simp⟩, by simp, by simp⟩
  | cons checkpoint checkpoints ih =>
    constructor
    · intro h
      have hadmits := admits_of_isSome h
      rw [restoreSessions_of_admits hadmits, ih] at h
      apply hadmits.cons h
    · intro h
      rw [restoreSessions_of_admits h.head, ih]
      apply h.tail

/-- The sessions after a list of them was entered. -/
theorem lookup_restoreSessions (h : restoreSessions deadline checkpoints sessions = some sessions')
    {t : Bytes} {session : Session} :
  sessions'.lookup t = some session
    ↔ sessions.lookup t = some session ∨ ∃ checkpoint ∈ checkpoints, checkpoint.token = t
      ∧ session = .newOffline checkpoint.roomId checkpoint.playerId deadline
  := by
  induction checkpoints generalizing sessions with
  | nil =>
    cases h
    simp
  | cons checkpoint checkpoints ih =>
    have hadmits := admits_of_isSome (by rw [h]; rfl)
    rw [restoreSessions_of_admits hadmits] at h
    rw [ih h, AList.lookup_insert_eq_ite]
    have hnone := AList.lookup_eq_none.mpr hadmits.new
    simp only [List.mem_cons, exists_eq_or_imp]
    grind

variable {manager manager' : SessionManager} {now : Int}

theorem restoreCheckpoint_isSome_iff :
  (manager.restoreCheckpoint checkpoints now).isSome ↔ SessionsAcceptable checkpoints
  := by
  rw [restoreCheckpoint, Option.bind_eq_bind, Option.isSome_bind]
  cases hres : restoreSessions (now + manager.reconnectTimeout) checkpoints ∅ with
  | none =>
    simp only [Option.any_none, Bool.false_eq_true, false_iff]
    intro hacc
    have hsome : (restoreSessions (now + manager.reconnectTimeout) checkpoints ∅).isSome :=
      restoreSessions_isSome_iff.mpr ⟨hacc, by simp, by simp [PlaceFree]⟩
    rw [hres] at hsome
    cases hsome
  | some sessions =>
    have hall := restoreSessions_isSome_iff.mp (by rw [hres]; rfl)
    simp [hall.acceptable]

/-- A restored manager has the sessions of the checkpoints, all offline, and no bindings. -/
theorem restoreCheckpoint_spec (h : manager.restoreCheckpoint checkpoints now = some manager') :
  manager'.bindings = ∅ ∧ ∀ t session, manager'.sessions.lookup t = some session
    ↔ ∃ checkpoint ∈ checkpoints, checkpoint.token = t
      ∧ session = .newOffline checkpoint.roomId checkpoint.playerId
        (now + manager.reconnectTimeout)
  := by
  rw [restoreCheckpoint, Option.bind_eq_bind] at h
  obtain ⟨sessions, hres, heq⟩ := Option.bind_eq_some_iff.mp h
  cases heq
  use rfl
  intro t session
  dsimp only
  rw [lookup_restoreSessions hres]
  simp

end SessionManager

/-! ### The identities of a checkpoint -/

/-- The players of the rooms are the players of the sessions. -/
def SameIdentities (checkpoint : ServerCheckpoint) : Prop :=
  ∀ r p, (∃ room ∈ checkpoint.rooms, room.roomId = r ∧ ∃ m ∈ room.members, m.playerId = p)
    ↔ ∃ session ∈ checkpoint.sessions, session.roomId = r ∧ session.playerId = p

theorem identitiesMatch_iff (checkpoint : ServerCheckpoint) :
  RoomService.identitiesMatch checkpoint.rooms checkpoint.sessions
    ↔ SameIdentities checkpoint
  := by
  rw [RoomService.identitiesMatch, Bool.and_eq_true, List.all_eq_true, List.all_eq_true,
    SameIdentities]
  simp only [List.contains_iff_mem, List.mem_flatMap, List.mem_map, forall_exists_index, and_imp,
    Prod.forall, Prod.mk.injEq]
  constructor
  · rintro ⟨hrooms, hsessions⟩ r p
    constructor
    · rintro ⟨room, hroom, hr, m, hm, hp⟩
      apply hrooms r p room hroom m hm hr hp
    · rintro ⟨session, hsession, hr, hp⟩
      obtain ⟨room, hroom, m, hm, hr', hp'⟩ := hsessions r p session hsession hr hp
      exact ⟨room, hroom, hr', m, hm, hp'⟩
  · intro h
    constructor
    · intro r p room hroom m hm hr hp
      apply (h r p).mp ⟨room, hroom, hr, m, hm, hp⟩
    · intro r p session hsession hr hp
      obtain ⟨room, hroom, hr', m, hm, hp'⟩ := (h r p).mpr ⟨session, hsession, hr, hp⟩
      exact ⟨room, hroom, m, hm, hr', hp'⟩

namespace RoomService

/-- What has to be the case for a service to be restored, and the restored service. -/
theorem restoreCheckpoint_eq_true_iff {service service' : RoomService} {inLoop : Bool}
    {checkpoint : ServerCheckpoint} {now : Int} :
  service.restoreCheckpoint inLoop checkpoint now = (true, service')
    ↔ checkpoint.generation ≠ 0 ∧ inLoop ∧ SameIdentities checkpoint
      ∧ ∃ roomManager sessionManager,
        RoomManager.restoreCheckpoint checkpoint.rooms = some roomManager
        ∧ service.sessionManager.restoreCheckpoint checkpoint.sessions now = some sessionManager
        ∧ service' = ⟨roomManager, sessionManager⟩
  := by
  rw [← identitiesMatch_iff, restoreCheckpoint]
  constructor
  · intro h
    split at h
    · cases h
    next hgeneration =>
    split at h
    · cases h
    next hloop =>
    split at h
    · cases h
    next hidentities =>
    split at h
    · cases h
    next roomManager hrooms =>
    dsimp only at h
    split at h
    · cases h
    next sessionManager hsessions =>
    cases h
    exact ⟨hgeneration, by simpa using hloop, by simpa using hidentities, _, _, hrooms,
      hsessions, rfl⟩
  · rintro ⟨hgeneration, hloop, hidentities, roomManager, sessionManager, hrooms, hsessions, rfl⟩
    simp [hgeneration, hloop, hidentities, hrooms, hsessions]

end RoomService

end RoomServer
