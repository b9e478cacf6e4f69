import RoomServer.Service.Runs
import RoomServer.Checkpoint.FileFormat

/-!
# Saving and restarting

A restart replaces the service by a new one that is restored from the encoded checkpoint of
the old.  In every state that tasks and restarts reach the service is `Saveable`: its
checkpoint is one every validator accepts, and a service restored from it has the same
checkpoint.
-/

namespace RoomServer

/-! ### Rooms -/

/-- The checkpoint with its members and players in the order of their ids. -/
def RoomCheckpoint.canonical (checkpoint : RoomCheckpoint) : RoomCheckpoint :=
  { checkpoint with
    members := checkpoint.members.sortOn fun member => member.playerId.toNat
    gameStates := checkpoint.gameStates.sortOn fun state => state.playerId.toNat }

namespace Room

/-- The data of the room. -/
def checkpoint (room : Room) : RoomCheckpoint where
  roomId := room.roomId
  capacity := room.capacity
  nextPlayerId := room.nextPlayerId
  state := room.stateMachine.state
  tickId := room.tickId
  members :=
    (room.members.values.map fun member =>
      CheckpointMember.mk member.playerId member.playerName).sortOn
        fun member => member.playerId.toNat
  gameStates := room.gameState.snapshot

variable {room : Room}

theorem mem_checkpoint_members (h : room.Valid) {m : CheckpointMember} :
  m ∈ room.checkpoint.members
    ↔ ∃ member, room.members.lookup m.playerId = some member ∧ member.playerName = m.playerName
  := by
  rw [checkpoint, List.mem_sortOn, List.mem_map]
  constructor
  · rintro ⟨member, hmember, rfl⟩
    obtain ⟨k, hk⟩ := AList.mem_values.mp hmember
    use member
    rw [h.key hk]
    exact ⟨hk, rfl⟩
  · rintro ⟨member, hmember, hname⟩
    use member, AList.mem_values.mpr ⟨_, hmember⟩
    rw [h.key hmember, hname]

/-- Ids that are different are different numbers. -/
theorem nodup_map_toNat {α : Type} {l : List α} {id : α → UInt64} (h : (l.map id).Nodup) :
  (l.map fun a => (id a).toNat).Nodup
  := by
  have hmap : (l.map fun a => (id a).toNat) = (l.map id).map UInt64.toNat := by
    rw [List.map_map]
    rfl
  rw [hmap]
  apply h.map fun _ _ => UInt64.toNat_inj.mp

theorem Valid.keyed (h : room.Valid) : room.gameState.Keyed := fun _ _ => h.game_key

theorem mem_snapshot (h : room.Valid) {state : PlayerGameState} :
  state ∈ room.gameState.snapshot
    ↔ room.gameState.players.lookup state.playerId = some state
  := h.keyed.mem_snapshot

/-- The members of a checkpoint are in the order of their ids. -/
theorem pairwise_checkpoint_members (h : room.Valid) :
  room.checkpoint.members.Pairwise fun m m' => m.playerId.toNat < m'.playerId.toNat
  := by
  apply List.pairwise_lt_sortOn
  rw [List.map_map]
  apply AList.nodup_map_values
  intro k k' member member' hk hk' heq
  rw [← h.key hk, ← h.key hk']
  apply UInt64.toNat_inj.mp heq

theorem pairwise_snapshot (h : room.Valid) :
  room.gameState.snapshot.Pairwise fun s s' => s.playerId.toNat < s'.playerId.toNat
  := h.keyed.pairwise_snapshot

/-- The checkpoint of a playable room can be restored. -/
theorem checkpoint_acceptable (h : room.Valid) (hplayable : room.Playable) :
  room.checkpoint.Acceptable
  := by
  have hmembers : room.checkpoint.members.length = room.members.size := by
    rw [checkpoint, List.length_sortOn, List.length_map, AList.values, List.length_map]
    rfl
  have hstates : room.checkpoint.gameStates.length = room.gameState.players.size :=
    room.gameState.length_snapshot
  constructor
  · rw [hmembers]
    apply h.size_le
  · apply List.nodup_map_of_pairwise_lt (pairwise_checkpoint_members h)
  · intro m hm
    obtain ⟨member, hmember, -⟩ := (mem_checkpoint_members h).mp hm
    apply h.id_ne_zero (AList.mem_iff_lookup.mpr ⟨member, hmember⟩)
  · intro m hm
    obtain ⟨member, hmember, hname⟩ := (mem_checkpoint_members h).mp hm
    rw [← hname]
    apply h.name_fits hmember
  · intro hnext m hm
    obtain ⟨member, hmember, -⟩ := (mem_checkpoint_members h).mp hm
    apply h.id_lt (AList.mem_iff_lookup.mpr ⟨member, hmember⟩) hnext
  · intro hstate
    use h.tick_eq_zero hstate
    rw [List.eq_nil_iff_forall_not_mem]
    intro state hmem
    have hlookup := (mem_snapshot h).mp hmem
    apply h.game_empty hstate (AList.mem_iff_lookup.mpr ⟨state, hlookup⟩)
  · intro hstate
    rw [hstates, hmembers]
    apply AList.size_eq_of_mem_iff fun k => h.mem_game hstate
  · intro hstate state hmem
    have hlookup := (mem_snapshot h).mp hmem
    have hmember := (h.mem_game hstate).mp (AList.mem_iff_lookup.mpr ⟨state, hlookup⟩)
    obtain ⟨member, hmember⟩ := AList.mem_iff_lookup.mp hmember
    exact ⟨⟨state.playerId, member.playerName⟩,
      (mem_checkpoint_members h).mpr ⟨member, hmember, rfl⟩, rfl⟩
  · rw [hstates]
    apply hplayable.size_le
  · apply List.nodup_map_of_pairwise_lt (pairwise_snapshot h)
  · intro state hmem
    apply (hplayable.sound _ _ ((mem_snapshot h).mp hmem)).toRestorable

/-- The checkpoint of a valid room is in order. -/
theorem canonical_checkpoint (h : room.Valid) :
  room.checkpoint.canonical = room.checkpoint
  := by
  have hmembers := List.sortOn_eq_of_pairwise_lt (pairwise_checkpoint_members h) (.refl _)
  have hstates : (room.checkpoint.gameStates.sortOn fun state => state.playerId.toNat)
      = room.checkpoint.gameStates :=
    List.sortOn_eq_of_pairwise_lt (pairwise_snapshot h) (.refl _)
  rw [RoomCheckpoint.canonical, hmembers, hstates]

/-- A room that is restored from a checkpoint has the data of the checkpoint. -/
theorem checkpoint_of_describes (h : room.Valid) {checkpoint : RoomCheckpoint}
    (hacc : checkpoint.Acceptable) (hdesc : checkpoint.Describes room) :
  room.checkpoint = checkpoint.canonical
  := by
  have hmembers : room.checkpoint.members = checkpoint.canonical.members := by
    apply List.eq_of_mem_iff_of_pairwise_lt (pairwise_checkpoint_members h)
      (List.pairwise_lt_sortOn (nodup_map_toNat hacc.ids_nodup))
    intro m
    rw [mem_checkpoint_members h, List.mem_sortOn]
    simp only [hdesc.member]
    constructor
    · rintro ⟨_, ⟨m', hm', hid, rfl⟩, hname⟩
      cases m
      cases m'
      cases hid
      cases hname
      exact hm'
    · intro hm
      exact ⟨_, ⟨m, hm, rfl, rfl⟩, rfl⟩
  have hstates : room.checkpoint.gameStates = checkpoint.canonical.gameStates := by
    apply List.eq_of_mem_iff_of_pairwise_lt (pairwise_snapshot h)
      (List.pairwise_lt_sortOn (nodup_map_toNat hacc.game_nodup))
    intro state
    rw [mem_snapshot h, hdesc.player, List.mem_sortOn]
    simp
  rw [RoomCheckpoint.canonical, Room.checkpoint, RoomCheckpoint.mk.injEq]
  exact ⟨hdesc.roomId, hdesc.capacity, hdesc.nextPlayerId, hdesc.state, hdesc.tickId, hmembers,
    hstates⟩

/-- A room that the checkpoint of a playable room describes is playable. -/
theorem playable_of_describes (h : room.Valid) (hplayable : room.Playable) {room' : Room}
    (hdesc : room.checkpoint.Describes room') :
  room'.Playable
  := by
  have hlookup : ∀ k state, room'.gameState.players.lookup k = some state
      ↔ room.gameState.players.lookup k = some state := by
    intro k state
    rw [hdesc.player, show state ∈ room.checkpoint.gameStates ↔ _ from mem_snapshot h]
    constructor
    · rintro ⟨hmem, rfl⟩
      exact hmem
    · intro hk
      have hkey := h.game_key hk
      subst hkey
      exact ⟨hk, rfl⟩
  constructor
  · intro k state hk
    apply hplayable.sound k state ((hlookup k state).mp hk)
  · have hmem : ∀ k, k ∈ room'.gameState.players ↔ k ∈ room.gameState.players := by
      intro k
      simp only [AList.mem_iff_lookup, hlookup]
    rw [AList.size_eq_of_mem_iff hmem]
    apply hplayable.size_le

end Room

/-! ### The table of rooms -/

namespace RoomManager

/-- The checkpoints in the order of their ids, each of them in order. -/
def canonical (checkpoints : List RoomCheckpoint) : List RoomCheckpoint :=
  (checkpoints.map RoomCheckpoint.canonical).sortOn fun checkpoint => checkpoint.roomId.toNat

/-- The data of the rooms, in the order of their ids. -/
def checkpoints (manager : RoomManager) : List RoomCheckpoint :=
  (manager.rooms.values.map Room.checkpoint).sortOn fun checkpoint => checkpoint.roomId.toNat

variable {manager manager' : RoomManager}

theorem makeCheckpoint_eq (manager : RoomManager) :
  manager.makeCheckpoint = some manager.checkpoints
  := by
  have hmap : manager.rooms.values.mapM Room.makeCheckpoint
      = some (manager.rooms.values.map Room.checkpoint) := List.mapM_pure
  rw [makeCheckpoint, hmap]
  rfl

theorem mem_checkpoints {checkpoint : RoomCheckpoint} :
  checkpoint ∈ manager.checkpoints
    ↔ ∃ r room, manager.rooms.lookup r = some room ∧ room.checkpoint = checkpoint
  := by
  rw [checkpoints, List.mem_sortOn, List.mem_map]
  simp only [AList.mem_values]
  constructor
  · rintro ⟨room, ⟨r, hr⟩, heq⟩
    exact ⟨r, room, hr, heq⟩
  · rintro ⟨r, room, hr, heq⟩
    exact ⟨room, ⟨r, hr⟩, heq⟩

theorem pairwise_checkpoints (h : manager.Valid) :
  manager.checkpoints.Pairwise fun c c' => c.roomId.toNat < c'.roomId.toNat
  := by
  apply List.pairwise_lt_sortOn
  rw [List.map_map]
  apply AList.nodup_map_values
  intro r r' room room' hr hr' heq
  rw [← h.key hr, ← h.key hr']
  apply UInt32.toNat_inj.mp heq

/-- Every room is playable. -/
def Playable (manager : RoomManager) : Prop :=
  ∀ r room, manager.rooms.lookup r = some room → room.Playable

/-- The checkpoints of playable rooms can be restored. -/
theorem checkpoints_acceptable (h : manager.Valid) (hplayable : manager.Playable) :
  RoomsAcceptable manager.checkpoints
  := by
  constructor
  · rw [List.Nodup, List.pairwise_map]
    apply (pairwise_checkpoints h).imp
    intro c c' hlt heq
    rw [heq] at hlt
    apply lt_irrefl _ hlt
  · intro checkpoint hmem
    obtain ⟨r, room, hr, rfl⟩ := mem_checkpoints.mp hmem
    apply Room.checkpoint_acceptable (h.valid hr) (hplayable r room hr)

/-- Rooms restored from checkpoints have the data of the checkpoints. -/
theorem checkpoints_of_restore {checkpoints : List RoomCheckpoint}
    (hrestore : restoreCheckpoint checkpoints = some manager) :
  manager.checkpoints = canonical checkpoints
  := by
  have hvalid := restoreCheckpoint_valid hrestore
  have hdescribe := restoreCheckpoint_describe hrestore
  have hacc := (restoreCheckpoint_isSome_iff checkpoints).mp (by rw [hrestore]; rfl)
  have hids : ((checkpoints.map RoomCheckpoint.canonical).map
      fun checkpoint => checkpoint.roomId.toNat).Nodup := by
    have hmap : ((checkpoints.map RoomCheckpoint.canonical).map
          fun checkpoint => checkpoint.roomId.toNat)
        = (checkpoints.map fun checkpoint => checkpoint.roomId).map UInt32.toNat := by
      rw [List.map_map, List.map_map]
      rfl
    rw [hmap]
    apply hacc.ids_nodup.map fun _ _ => UInt32.toNat_inj.mp
  apply List.eq_of_mem_iff_of_pairwise_lt (pairwise_checkpoints hvalid)
    (List.pairwise_lt_sortOn hids)
  intro checkpoint
  rw [mem_checkpoints, List.mem_sortOn, List.mem_map]
  constructor
  · rintro ⟨r, room, hr, rfl⟩
    obtain ⟨checkpoint, hmem, -, hdesc⟩ := (hdescribe r).1 room hr
    refine ⟨checkpoint, hmem, ?_⟩
    rw [Room.checkpoint_of_describes (hvalid.valid hr) (hacc.acceptable _ hmem) hdesc]
  · rintro ⟨checkpoint, hmem, rfl⟩
    obtain ⟨room, hr, hdesc⟩ := (hdescribe checkpoint.roomId).2 checkpoint hmem rfl
    refine ⟨_, room, hr, ?_⟩
    rw [Room.checkpoint_of_describes (hvalid.valid hr) (hacc.acceptable _ hmem) hdesc]

/-- The checkpoints of valid rooms are in order. -/
theorem canonical_checkpoints (h : manager.Valid) :
  canonical manager.checkpoints = manager.checkpoints
  := by
  have hmap : manager.checkpoints.map RoomCheckpoint.canonical = manager.checkpoints.map id := by
    apply List.map_congr_left
    intro checkpoint hmem
    obtain ⟨r, room, hr, rfl⟩ := mem_checkpoints.mp hmem
    apply Room.canonical_checkpoint (h.valid hr)
  rw [canonical, hmap, List.map_id]
  apply List.sortOn_eq_of_pairwise_lt (pairwise_checkpoints h) (.refl _)

/-- Rooms restored from the checkpoints of playable rooms have the same checkpoints and are
playable. -/
theorem checkpoints_of_restored (h : manager.Valid) (hplayable : manager.Playable)
    (hrestore : restoreCheckpoint manager.checkpoints = some manager') :
  manager'.checkpoints = manager.checkpoints ∧ manager'.Playable
  := by
  constructor
  · rw [checkpoints_of_restore hrestore, canonical_checkpoints h]
  · intro r room' hr
    obtain ⟨_, hmem, -, hdesc⟩ := (restoreCheckpoint_describe hrestore r).1 room' hr
    obtain ⟨r', room, hr', rfl⟩ := mem_checkpoints.mp hmem
    apply Room.playable_of_describes (h.valid hr') (hplayable r' room hr') hdesc

end RoomManager

/-! ### Sessions -/

namespace SessionManager

/-- The checkpoints in the order of their tokens. -/
def canonical (checkpoints : List SessionCheckpoint) : List SessionCheckpoint :=
  checkpoints.sortOn fun checkpoint => checkpoint.token.map UInt8.toNat

/-- The data of the sessions, in the order of their tokens. -/
def checkpoints (manager : SessionManager) : List SessionCheckpoint :=
  (manager.sessions.entries.map fun entry =>
    SessionCheckpoint.mk entry.1 entry.2.roomId entry.2.playerId).sortOn
      fun checkpoint => checkpoint.token.map UInt8.toNat

variable {manager manager' : SessionManager}

theorem mem_checkpoints {checkpoint : SessionCheckpoint} :
  checkpoint ∈ manager.checkpoints
    ↔ ∃ session, manager.sessions.lookup checkpoint.token = some session
      ∧ session.roomId = checkpoint.roomId ∧ session.playerId = checkpoint.playerId
  := by
  rw [checkpoints, List.mem_sortOn, List.mem_map]
  constructor
  · rintro ⟨⟨t, session⟩, hentry, rfl⟩
    exact ⟨session, AList.mem_lookup_iff.mpr hentry, rfl, rfl⟩
  · rintro ⟨session, hsession, hr, hp⟩
    refine ⟨⟨checkpoint.token, session⟩, AList.mem_lookup_iff.mp hsession, ?_⟩
    rw [hr, hp]

theorem token_injective :
  Function.Injective fun token : Bytes => token.map UInt8.toNat
  := List.map_injective_iff.mpr fun _ _ => UInt8.toNat_inj.mp

theorem pairwise_checkpoints (manager : SessionManager) :
  manager.checkpoints.Pairwise fun c c' => c.token.map UInt8.toNat < c'.token.map UInt8.toNat
  := by
  apply List.pairwise_lt_sortOn
  have hkeys : (manager.sessions.entries.map fun entry =>
      SessionCheckpoint.mk entry.1 entry.2.roomId entry.2.playerId).map
        (fun checkpoint => checkpoint.token.map UInt8.toNat)
      = manager.sessions.keys.map fun token => token.map UInt8.toNat := by
    rw [List.map_map, AList.keys, List.keys, List.map_map]
    rfl
  rw [hkeys]
  apply manager.sessions.keys_nodup.map token_injective

/-- The checkpoints of sessions with fitting tokens and different players can be restored. -/
theorem checkpoints_acceptable
    (hfits : ∀ t session, manager.sessions.lookup t = some session → TokenFits t)
    (hinj : ∀ t t' session session', manager.sessions.lookup t = some session →
      manager.sessions.lookup t' = some session' → session.roomId = session'.roomId →
      session.playerId = session'.playerId → t = t') :
  SessionsAcceptable manager.checkpoints
  := by
  constructor
  · intro checkpoint hmem
    obtain ⟨session, hsession, -, -⟩ := mem_checkpoints.mp hmem
    apply hfits _ session hsession
  · rw [List.Nodup, List.pairwise_map]
    apply manager.pairwise_checkpoints.imp
    intro c c' hlt heq
    rw [heq] at hlt
    apply lt_irrefl _ hlt
  · rw [List.Nodup, List.pairwise_map]
    apply manager.pairwise_checkpoints.imp_of_mem
    intro c c' hc hc' hlt heq
    obtain ⟨session, hsession, hr, hp⟩ := mem_checkpoints.mp hc
    obtain ⟨session', hsession', hr', hp'⟩ := mem_checkpoints.mp hc'
    rw [Prod.mk.injEq, ← hr, ← hp, ← hr', ← hp'] at heq
    rw [hinj _ _ session session' hsession hsession' heq.1 heq.2] at hlt
    apply lt_irrefl _ hlt

/-- Sessions restored from checkpoints have the data of the checkpoints. -/
theorem checkpoints_of_restore {other : SessionManager} {checkpoints : List SessionCheckpoint}
    {now : Int} (hrestore : other.restoreCheckpoint checkpoints now = some manager) :
  manager.checkpoints = canonical checkpoints
  := by
  obtain ⟨-, hlookup⟩ := restoreCheckpoint_spec hrestore
  have hacc := restoreCheckpoint_isSome_iff.mp
    (show (other.restoreCheckpoint checkpoints now).isSome by rw [hrestore]; rfl)
  have htokens : (checkpoints.map fun checkpoint => checkpoint.token.map UInt8.toNat).Nodup := by
    have hmap : (checkpoints.map fun checkpoint => checkpoint.token.map UInt8.toNat)
        = (checkpoints.map fun checkpoint => checkpoint.token).map
          fun token => token.map UInt8.toNat := by
      rw [List.map_map]
      rfl
    rw [hmap]
    apply hacc.tokens_nodup.map token_injective
  apply List.eq_of_mem_iff_of_pairwise_lt manager.pairwise_checkpoints
    (List.pairwise_lt_sortOn htokens)
  intro checkpoint
  rw [mem_checkpoints, List.mem_sortOn]
  simp only [hlookup]
  constructor
  · rintro ⟨_, ⟨c, hc, htoken, rfl⟩, hr, hp⟩
    cases c
    cases checkpoint
    cases htoken
    cases hr
    cases hp
    exact hc
  · intro hmem
    exact ⟨_, ⟨checkpoint, hmem, rfl, rfl⟩, rfl, rfl⟩

/-- Sessions restored from the checkpoints of sessions have the same checkpoints. -/
theorem checkpoints_of_restored {other : SessionManager} {now : Int}
    (hrestore : other.restoreCheckpoint manager.checkpoints now = some manager') :
  manager'.checkpoints = manager.checkpoints
  := by
  rw [checkpoints_of_restore hrestore]
  apply List.sortOn_eq_of_pairwise_lt manager.pairwise_checkpoints (.refl _)

end SessionManager

/-! ### The service -/

namespace RoomService

/-- The service is in step with claims, its rooms are playable, and its tokens fit. -/
structure Saveable (service : RoomService) : Prop where
  represents : ∃ L, service.Represents L
  playable : service.roomManager.Playable
  token_fits : ∀ t session, service.sessionManager.sessions.lookup t = some session → TokenFits t

/-- The checkpoint of the service. -/
def checkpoint (service : RoomService) (generation : UInt64) : ServerCheckpoint :=
  ⟨generation, service.roomManager.checkpoints, service.sessionManager.checkpoints⟩

variable {service service' : RoomService} {L : Ledger}

/-- The players of a coherent service are the members of its rooms. -/
theorem Represents.sameIdentities (hL : service.Represents L) (generation : UInt64) :
  SameIdentities (service.checkpoint generation)
  := by
  intro r p
  have hmember : (∃ room ∈ service.roomManager.checkpoints,
        room.roomId = r ∧ ∃ m ∈ room.members, m.playerId = p)
      ↔ (r, p) ∈ service.memberSeats := by
    rw [mem_memberSeats hL.valid]
    simp only [RoomManager.mem_checkpoints, RoomManager.member_eq_some_iff]
    constructor
    · rintro ⟨_, ⟨r', room, hr, rfl⟩, hid, m, hm, rfl⟩
      obtain ⟨member, hmember, -⟩ := (Room.mem_checkpoint_members (hL.valid.valid hr)).mp hm
      have hkey := hL.valid.key hr
      rw [show room.roomId = r from hid] at hkey
      subst hkey
      exact ⟨member, room, hr, hmember⟩
    · rintro ⟨member, room, hr, hp⟩
      exact ⟨_, ⟨r, room, hr, rfl⟩, hL.valid.key hr, ⟨p, member.playerName⟩,
        (Room.mem_checkpoint_members (hL.valid.valid hr)).mpr ⟨member, hp, rfl⟩, rfl⟩
  have hsession : (∃ session ∈ service.sessionManager.checkpoints,
        session.roomId = r ∧ session.playerId = p)
      ↔ (r, p) ∈ service.sessionSeats := by
    rw [sessionSeats, List.mem_map]
    simp only [SessionManager.mem_checkpoints, AList.mem_values]
    constructor
    · rintro ⟨c, ⟨session, hlookup, hr, hp⟩, rfl, rfl⟩
      refine ⟨session, ⟨_, hlookup⟩, ?_⟩
      rw [Session.seat, hr, hp]
    · rintro ⟨session, ⟨t, hlookup⟩, hseat⟩
      rw [Session.seat, Prod.mk.injEq] at hseat
      exact ⟨⟨t, r, p⟩, ⟨session, hlookup, hseat⟩, rfl, rfl⟩
  apply hmember.trans ((hL.coherent.seats (r, p)).symm.trans hsession.symm)

theorem Saveable.sessions_acceptable (h : service.Saveable) :
  SessionsAcceptable service.sessionManager.checkpoints
  := by
  obtain ⟨L, hL⟩ := h.represents
  apply SessionManager.checkpoints_acceptable h.token_fits
  intro t t' session session' ht ht' hr hp
  have hclaim := hL.claim_of_session ht
  have hclaim' := hL.claim_of_session ht'
  rw [Session.seat, hr, hp] at hclaim
  apply L.seat_inj hclaim hclaim'

theorem Saveable.rooms_acceptable (h : service.Saveable) :
  RoomsAcceptable service.roomManager.checkpoints
  := by
  obtain ⟨L, hL⟩ := h.represents
  apply RoomManager.checkpoints_acceptable hL.valid h.playable

/-- The service can be saved. -/
theorem Saveable.makeCheckpoint_eq (h : service.Saveable) {generation : UInt64}
    (hgeneration : generation ≠ 0) :
  service.makeCheckpoint true generation = some (service.checkpoint generation)
  := by
  obtain ⟨L, hL⟩ := h.represents
  have hidentities := (identitiesMatch_iff _).mpr (hL.sameIdentities generation)
  have hsessions : service.sessionManager.makeCheckpoint
      = some service.sessionManager.checkpoints := rfl
  rw [makeCheckpoint, if_neg hgeneration, RoomManager.makeCheckpoint_eq, hsessions]
  simp only [checkpoint] at hidentities
  simp [hidentities, checkpoint]

/-- The checkpoint of the service has valid keys. -/
theorem Saveable.validCheckpointKeys (h : service.Saveable) (generation : UInt64) :
  CheckpointCodec.validCheckpointKeys (service.checkpoint generation) = true
  := by
  have hrooms := h.rooms_acceptable
  have hsessions := h.sessions_acceptable
  simp only [CheckpointCodec.validCheckpointKeys, checkpoint, Bool.and_eq_true, List.all_eq_true]
  refine ⟨⟨⟨decide_eq_true hrooms.ids_nodup, ?_⟩, decide_eq_true hsessions.tokens_nodup⟩,
    decide_eq_true hsessions.identities_nodup⟩
  intro session hsession
  obtain ⟨hlen, hhex⟩ := hsessions.token_fits session hsession
  simp [CheckpointCodec.validSessionToken, hlen, hhex]

/-- A new service can be restored from the checkpoint of the service. -/
theorem Saveable.restores (h : service.Saveable) {generation : UInt64}
    (hgeneration : generation ≠ 0) (reconnectTimeout now : Int) :
  ∃ service', (new reconnectTimeout).restoreCheckpoint true (service.checkpoint generation) now
    = (true, service')
  := by
  obtain ⟨L, hL⟩ := h.represents
  obtain ⟨roomManager, hrooms⟩ := Option.isSome_iff_exists.mp
    ((RoomManager.restoreCheckpoint_isSome_iff _).mpr h.rooms_acceptable)
  obtain ⟨sessionManager, hsessions⟩ := Option.isSome_iff_exists.mp
    ((@SessionManager.restoreCheckpoint_isSome_iff _ (new reconnectTimeout).sessionManager
      now).mpr h.sessions_acceptable)
  use ⟨roomManager, sessionManager⟩
  apply restoreCheckpoint_eq_true_iff.mpr
  exact ⟨hgeneration, rfl, hL.sameIdentities generation, _, _, hrooms, hsessions, rfl⟩

/-- A service restored from the checkpoint of the service has the same data, and can be saved
in turn. -/
theorem Saveable.restored (h : service.Saveable) {generation : UInt64} {other : RoomService}
    {now : Int}
    (hrestore : other.restoreCheckpoint true (service.checkpoint generation) now
      = (true, service')) :
  service'.Saveable
    ∧ ∀ generation', service'.checkpoint generation' = service.checkpoint generation'
  := by
  obtain ⟨L, hL⟩ := h.represents
  have hrepresents := restoreCheckpoint_represents hrestore
  obtain ⟨-, -, -, roomManager, sessionManager, hrooms, hsessions, rfl⟩ :=
    restoreCheckpoint_eq_true_iff.mp hrestore
  obtain ⟨hdata, hplayable⟩ := RoomManager.checkpoints_of_restored hL.valid h.playable hrooms
  constructor
  · refine ⟨hrepresents, hplayable, ?_⟩
    intro t session ht
    obtain ⟨c, hc, rfl, -⟩ := ((SessionManager.restoreCheckpoint_spec hsessions).2 t session).mp ht
    apply h.sessions_acceptable.token_fits c hc
  · intro generation'
    rw [checkpoint, hdata, SessionManager.checkpoints_of_restored hsessions, checkpoint]

/-! ### Transactions -/

/-- A playable room in the place of another. -/
theorem playable_setRoom {manager : RoomManager} (h : manager.Playable) {r : UInt32}
    {room room' : Room} (hroom : manager.rooms.lookup r = some room) (hplayable : room'.Playable) :
  (manager.setRoom r room').Playable
  := by
  intro r' room'' hlookup
  rw [RoomManager.lookup_setRoom hroom] at hlookup
  split at hlookup
  · cases hlookup
    exact hplayable
  · apply h r' room'' hlookup

/-- The tokens fit after one session was given other data. -/
theorem token_fits_assign {sessions : UnorderedMap Bytes Session} {token : Bytes}
    {session : Session} (hsession : sessions.lookup token = some session) (session' : Session)
    (hfits : ∀ t session, sessions.lookup t = some session → TokenFits t) (t : Bytes)
    (session'' : Session) (ht : (sessions.assign token session').lookup t = some session'') :
  TokenFits t
  := by
  rw [AList.lookup_assign_of_mem (AList.mem_iff_lookup.mpr ⟨session, hsession⟩)] at ht
  split at ht
  · next heq =>
    rw [heq]
    apply hfits token session hsession
  · apply hfits t session'' ht

/-- A transaction keeps the service saveable. -/
theorem Transaction.saveable {name fresh : Bytes} {es : List Event}
    (h : Transaction name fresh service es service') (hfresh : fresh ≠ [] → TokenFits fresh)
    (hservice : service.Saveable) :
  service'.Saveable
  := by
  obtain ⟨L, hL⟩ := hservice.represents
  obtain ⟨L', -, hL'⟩ := h.represents hL
  have hplayable := hservice.playable
  have hfits := hservice.token_fits
  cases h with
  | quiet => exact hservice
  | @skipId r room _ hroom =>
    have hroom' : room.skipId.Playable :=
      ⟨(hplayable r room hroom).sound, (hplayable r room hroom).size_le⟩
    exact ⟨⟨L', hL'⟩, playable_setRoom hplayable hroom hroom', hfits⟩
  | @submit r room _ hroom pendingCommands =>
    have hroom' : { room with pendingCommands }.Playable :=
      ⟨(hplayable r room hroom).sound, (hplayable r room hroom).size_le⟩
    exact ⟨⟨L', hL'⟩, playable_setRoom hplayable hroom hroom', hfits⟩
  | tick =>
    refine ⟨⟨L', hL'⟩, ?_, hfits⟩
    intro r room' hr
    rw [RoomManager.lookup_tickRooms] at hr
    obtain ⟨room, hroom, rfl⟩ := Option.map_eq_some_iff.mp hr
    rw [RoomManager.tickRoom_eq]
    apply (hplayable r room hroom).tick
  | @enrol r room room' c _ _ _ hroom hname hwaiting hsize hnext hroom' _ htoken =>
    refine ⟨⟨L', hL'⟩, playable_setRoom hplayable hroom ?_, ?_⟩
    · obtain rfl | ⟨hstart, rfl⟩ := hroom'
      · exact ⟨(hplayable r room hroom).sound, (hplayable r room hroom).size_le⟩
      · have hvalid := (hL.valid.valid hroom).enrol ⟨hname, hwaiting, hsize, hnext⟩ (some c)
        apply Room.started_playable hvalid hstart
    · intro t session ht
      dsimp only at ht
      rw [AList.lookup_insert_eq_ite] at ht
      split at ht
      · next heq =>
        rw [heq]
        apply hfresh htoken
      · apply hfits t session ht
  | @bind token session room member c _ _ hsession _ _ hroom =>
    have hroom' : (room.seat member (some c)).Playable :=
      ⟨(hplayable _ room hroom).sound, (hplayable _ room hroom).size_le⟩
    exact ⟨⟨L', hL'⟩, playable_setRoom hplayable hroom hroom',
      token_fits_assign hsession _ hfits⟩
  | @unbind token session room member c _ hsession hroom =>
    have hroom' : (room.seat member none).Playable :=
      ⟨(hplayable _ room hroom).sound, (hplayable _ room hroom).size_le⟩
    exact ⟨⟨L', hL'⟩, playable_setRoom hplayable hroom hroom',
      token_fits_assign hsession _ hfits⟩
  | @remove token session room bindings _ _ hsession hroom =>
    refine ⟨⟨L', hL'⟩, playable_setRoom hplayable hroom ((hplayable _ room hroom).dismiss _), ?_⟩
    intro t session' ht
    dsimp only at ht
    rw [AList.lookup_erase_eq_ite] at ht
    split at ht
    · cases ht
    · apply hfits t session' ht

theorem Transactions.saveable {name fresh : Bytes} {es : List Event}
    (h : Transactions name fresh service es service') (hfresh : fresh ≠ [] → TokenFits fresh)
    (hservice : service.Saveable) :
  service'.Saveable
  := by
  induction h with
  | nil => exact hservice
  | single h => apply h.saveable hfresh hservice
  | cons h _ _ ih => apply ih (h.saveable hfresh hservice)

/-! ### Runs with restarts -/

/-- The token of the task is one the server generates. -/
def TokenGenerated (task : Task) : Prop :=
  ∃ random, task.token = SessionManager.generateToken random

/-- Every generated token has the length and the digits of one. -/
theorem tokenFits_generateToken (random : Vector UInt8 16) :
  TokenFits (SessionManager.generateToken (some random))
  := by
  have hdigit : ∀ byte : UInt8,
      SessionManager.isLowerHex (SessionManager.hex.getD (byte &&& 0x0f).toNat 0) = true := by
    intro byte
    have hlt : (byte &&& 0x0f).toNat < 16 := by
      rw [UInt8.toNat_and]
      apply Nat.lt_of_le_of_lt Nat.and_le_right (by decide)
    have hall : ∀ n < 16, SessionManager.isLowerHex (SessionManager.hex.getD n 0) = true := by
      decide
    apply hall _ hlt
  constructor
  · simp [SessionManager.generateToken, List.length_flatMap]
  · rw [SessionManager.generateToken, List.all_flatMap, List.all_eq_true]
    intro byte _
    rw [List.all_cons, List.all_cons, hdigit, hdigit]
    rfl

theorem TokenGenerated.fits {task : Task} (h : TokenGenerated task) (hne : task.token ≠ []) :
  TokenFits task.token
  := by
  obtain ⟨random, heq⟩ := h
  rw [heq] at hne ⊢
  cases random with
  | none => exact absurd rfl hne
  | some random => apply tokenFits_generateToken random

/-- The service is replaced by a new one restored from its encoded checkpoint. -/
def Restarts (service : RoomService) (generation : UInt64) (reconnectTimeout now : Int)
    (service' : RoomService) : Prop :=
  ∃ checkpoint data checkpoint',
    service.makeCheckpoint true generation = some checkpoint
    ∧ CheckpointCodec.encode checkpoint [] = (.success, data)
    ∧ CheckpointCodec.decode data ⟨0, [], []⟩ = (.success, checkpoint')
    ∧ (new reconnectTimeout).restoreCheckpoint true checkpoint' now = (true, service')

inductive RestartableAction where
  | addRoom (roomId : UInt32) (capacity : UInt64)
  | task (task : Task) (answers : Answers)
  | restart (generation : UInt64) (reconnectTimeout now : Int)
  | reorder

/-- The service that starts empty, runs tasks and is restarted. -/
def restartable : System RoomService RestartableAction where
  Initial service := ∃ reconnectTimeout, service = .new reconnectTimeout
  Step service action service' :=
    match action with
    | .addRoom roomId capacity => service' = (service.addRoom true roomId capacity).2
    | .task task answers => TokenGenerated task ∧ service' = (service.run answers task).1
    | .restart generation reconnectTimeout now =>
      service.Restarts generation reconnectTimeout now service'
    | .reorder => service.Reordered service'

theorem new_saveable (reconnectTimeout : Int) :
  (new reconnectTimeout).Saveable
  := by
  refine ⟨⟨_, new_represents reconnectTimeout⟩, ?_, ?_⟩
  · intro r room hroom
    cases hroom
  · intro t session ht
    cases ht

theorem Saveable.addRoom (h : service.Saveable) (r : UInt32) (capacity : UInt64) :
  (service.addRoom true r capacity).2.Saveable
  := by
  obtain ⟨L, hL⟩ := h.represents
  refine ⟨⟨L, hL.addRoom r capacity⟩, ?_, h.token_fits⟩
  intro r' room hroom
  rw [show (service.addRoom true r capacity).2.roomManager
    = (service.roomManager.addRoom r capacity).2 from rfl] at hroom
  obtain heq | ⟨-, heq⟩ := service.roomManager.addRoom_cases r capacity
  · rw [heq] at hroom
    apply h.playable r' room hroom
  · rw [heq, AList.lookup_insert_eq_ite] at hroom
    split at hroom
    · cases hroom
      apply Room.new_playable r capacity
    · apply h.playable r' room hroom

theorem Saveable.reorder (h : service.Saveable) (horder : service.Reordered service') :
  service'.Saveable
  := by
  obtain ⟨L, hL⟩ := h.represents
  refine ⟨⟨L, hL.reorder horder⟩, ?_, ?_⟩
  · intro r room' hr
    obtain ⟨room, hlookup, members, players, -, hp, rfl⟩ :=
      Option.exists_left_of_rel (horder.rooms r) hr
    have hplayable := h.playable r room hlookup
    constructor
    · intro k state hk
      apply hplayable.sound k state ((hp k).trans hk)
    · apply hp.size_eq ▸ hplayable.size_le
  · intro t session ht
    apply h.token_fits t session ((horder.sessions t).trans ht)

/-- A restart keeps the service saveable. -/
theorem Saveable.restart (h : service.Saveable) {generation : UInt64}
    {reconnectTimeout now : Int}
    (hrestart : service.Restarts generation reconnectTimeout now service') :
  service'.Saveable
  := by
  obtain ⟨checkpoint, data, checkpoint', hmake, hencode, hdecode, hrestore⟩ := hrestart
  have hgeneration : generation ≠ 0 := by
    rintro rfl
    rw [makeCheckpoint, if_pos rfl] at hmake
    cases hmake
  rw [h.makeCheckpoint_eq hgeneration] at hmake
  cases hmake
  have hround := CheckpointCodec.encode_decode_round (service.checkpoint generation) []
    ⟨0, [], []⟩ (by rw [hencode])
  rw [hencode, hdecode] at hround
  cases hround
  apply (h.restored hrestore).1

/-- In every state reached the service can be saved. -/
theorem saveable_of_reachable (h : restartable.Reachable service) :
  service.Saveable
  := by
  apply h.invariant
  · rintro service ⟨reconnectTimeout, rfl⟩
    apply new_saveable reconnectTimeout
  · rintro service action service' hservice - hstep
    cases action with
    | addRoom r capacity =>
      rw [show service' = _ from hstep]
      apply hservice.addRoom r capacity
    | task task answers =>
      obtain ⟨hgenerated, rfl⟩ := hstep
      obtain ⟨L, hL⟩ := hservice.represents
      apply (run_transacts hL answers task).saveable hgenerated.fits hservice
    | restart generation reconnectTimeout now => apply hservice.restart hstep
    | reorder => apply hservice.reorder hstep

/-- In every state reached, and for every generation, the service can be saved; its checkpoint
is encoded unless it is too large, and read back as it was; a new service is restored from it,
and has the same checkpoint. -/
theorem restart_of_reachable (h : restartable.Reachable service) {generation : UInt64}
    (hgeneration : generation ≠ 0) (data : Bytes) (output : ServerCheckpoint)
    (reconnectTimeout now : Int) :
  ∃ checkpoint, service.makeCheckpoint true generation = some checkpoint
    ∧ ((CheckpointCodec.encode checkpoint data).1 = .success
      ∨ (CheckpointCodec.encode checkpoint data).1 = .tooLarge)
    ∧ ((CheckpointCodec.encode checkpoint data).1 = .success →
      CheckpointCodec.decode (CheckpointCodec.encode checkpoint data).2 output
        = (.success, checkpoint))
    ∧ ∃ service',
      (new reconnectTimeout).restoreCheckpoint true checkpoint now = (true, service')
      ∧ service'.makeCheckpoint true generation = some checkpoint
  := by
  have hservice := saveable_of_reachable h
  obtain ⟨service', hrestore⟩ := hservice.restores hgeneration reconnectTimeout now
  obtain ⟨hservice', hsame⟩ := hservice.restored hrestore
  use service.checkpoint generation, hservice.makeCheckpoint_eq hgeneration
  refine ⟨?_, ?_, service', hrestore, ?_⟩
  · rw [CheckpointCodec.encode_of_valid hgeneration (hservice.validCheckpointKeys generation)]
    split
    · exact .inl rfl
    · exact .inr rfl
  · apply CheckpointCodec.encode_decode_round _ data output
  · rw [hservice'.makeCheckpoint_eq hgeneration, hsame]

/-- The service after a player named `A` has joined a room for two on the connection 7, with a
token of zeros. -/
def saved : RoomService :=
  (((new 30000).addRoom true 1 2).2.run ⟨fun _ _ _ => true, fun _ _ => false⟩
    (.frame (some 7) MessageType.join.toU16 [0, 0, 0, 1, 0, 1, 65]
      (SessionManager.generateToken (some (Vector.replicate 16 0))) 0)).1

theorem saved_reachable :
  restartable.Reachable saved
  := by
  have hroom : restartable.Reachable ((new 30000).addRoom true 1 2).2 :=
    .step (ℓ := .addRoom 1 2) (.initial ⟨30000, rfl⟩) trivial rfl
  have hgenerated : TokenGenerated (.frame (some 7) MessageType.join.toU16
      [0, 0, 0, 1, 0, 1, 65] (SessionManager.generateToken (some (Vector.replicate 16 0))) 0) :=
    ⟨some (Vector.replicate 16 0), rfl⟩
  exact hroom.step (ℓ := .task _ _) trivial ⟨hgenerated, rfl⟩

theorem saved_restart :
  (7 ∈ saved.sessionManager.bindings)
    ∧ ∃ checkpoint service', saved.makeCheckpoint true 1 = some checkpoint
      ∧ (new 30000).restoreCheckpoint true checkpoint 0 = (true, service')
      ∧ service'.makeCheckpoint true 1 = some checkpoint
  := by
  obtain ⟨checkpoint, hmake, -, -, service', hrestore, hsame⟩ :=
    restart_of_reachable saved_reachable (show (1 : UInt64) ≠ 0 by decide) [] ⟨0, [], []⟩ 30000 0
  exact ⟨by decide +kernel, checkpoint, service', hmake, hrestore, hsame⟩

end RoomService

end RoomServer
