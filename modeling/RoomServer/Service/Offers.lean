import RoomServer.Service.Responses
import RoomServer.Service.Roster
import RoomServer.Service.Joining

/-!
# What a task offers to a connection

A handler offers frames to connections.  Which frames a connection is offered by a task depends
on its seat, that is on the player it is bound to before and after the task: `Hears` lists the
three cases.  A connection without a player is told no more than that something is denied or
that it has left; one that is given a player is offered the response that says so; and one that
keeps its player is offered what the members of its room do, or a snapshot of the room.
-/

namespace RoomServer

/-! ### Frames -/

/-- The connection of an event. -/
def Event.connection : Event → ConnId
  | .sent c _ _ | .skipped c | .closeRequested c => c

/-- The frames in what is sent to the connection, accepted or not. -/
def offeredTo (c : ConnId) (es : List Event) : List Frame :=
  es.flatMap fun
    | .sent c' bytes _ => if c' = c then (Codec.readFrames bytes).frames else []
    | _ => []

/-- The tick a frame is about. -/
def Frame.tick (f : Frame) : Option UInt64 :=
  match MessageType.ofU16 f.type with
  | some .resumeOk => Protocol.parseResumeTick f.payload
  | some .stateSnapshot =>
    (Protocol.parseStateSnapshot f.payload).map fun snapshot => snapshot.2.1
  | _ => none

/-- The frame is the response that binds the player `p` of the room `r`. -/
inductive Opens (r : UInt32) (p : UInt64) : Frame → Prop
  | joinOk {payload token members}
      (h : Protocol.parseJoinOk payload = some (r, p, token, members)) :
      Opens r p ⟨MessageType.joinOk.toU16, payload⟩
  | resumeOk {payload members tickId}
      (h : Protocol.parseResumeOk payload = some (r, p, members))
      (htick : Protocol.parseResumeTick payload = some tickId) :
      Opens r p ⟨MessageType.resumeOk.toU16, payload⟩

/-- The frame tells the members of the room `r` what one of them did. -/
inductive Talks (r : UInt32) : Frame → Prop
  | playerJoined {payload member}
      (h : Protocol.parsePlayerJoined payload = some (r, member)) :
      Talks r ⟨MessageType.playerJoined.toU16, payload⟩
  | playerLeft {payload p} (h : Protocol.parsePlayerLeft payload = some (r, p)) :
      Talks r ⟨MessageType.playerLeft.toU16, payload⟩
  | chatEvent {payload p message}
      (h : Protocol.parseChatEvent payload = some (r, p, message)) :
      Talks r ⟨MessageType.chatEvent.toU16, payload⟩

/-- The frame is a snapshot of the room `r` as it is after its latest tick, in the order of the
ids, that shows the player `p` and exactly the members. -/
structure Shows (r : UInt32) (p : UInt64) (room : Room) (f : Frame) : Prop where
  type_eq : f.type = MessageType.stateSnapshot.toU16
  parse : ∃ states, Protocol.parseStateSnapshot f.payload = some (r, room.tickId, states)
    ∧ (states.map PlayerGameState.playerId).Pairwise (fun id id' => id.toNat < id'.toNat)
    ∧ ∀ k, k ∈ states.map PlayerGameState.playerId ↔ k ∈ room.members
  self : p ∈ room.members

variable {c : ConnId} {f : Frame} {es es' : List Event} {r : UInt32} {p : UInt64}

theorem offeredTo_append (c : ConnId) (es es' : List Event) :
  offeredTo c (es ++ es') = offeredTo c es ++ offeredTo c es'
  := List.flatMap_append

theorem offeredTo_sent (c : ConnId) (hfits : Codec.Fits f) (accepted : Bool) :
  offeredTo c [.sent c (Codec.frameBytes f) accepted] = [f]
  := by simp [offeredTo, readFrames_frameBytes hfits]

theorem SentTo.offeredTo_self (h : SentTo c f es) (hfits : Codec.Fits f) :
  offeredTo c es = [f]
  := by
  cases h with
  | unfit hunfit => exact absurd hfits hunfit
  | accepted => apply offeredTo_sent c hfits true
  | refused => simp [offeredTo, readFrames_frameBytes hfits]

theorem SentTo.offeredTo_other {c' : ConnId} (h : SentTo c' f es) (hne : c' ≠ c) :
  offeredTo c es = []
  := by
  cases h <;> simp [offeredTo, hne]

/-- What a connection is offered of a frame that is sent to a connection. -/
theorem SentTo.mem_offeredTo {c' : ConnId} (h : SentTo c' f es) {g : Frame}
    (hg : g ∈ offeredTo c es) :
  g = f ∧ c' = c
  := by
  by_cases hne : c' = c
  · subst hne
    cases h with
    | unfit => cases hg
    | accepted hfits =>
      rw [offeredTo_sent c' hfits, List.mem_singleton] at hg
      exact ⟨hg, rfl⟩
    | refused hfits =>
      have hoffered : offeredTo c' [.sent c' (Codec.frameBytes f) false, .closeRequested c']
          = [f] := by
        simp [offeredTo, readFrames_frameBytes hfits]
      rw [hoffered, List.mem_singleton] at hg
      exact ⟨hg, rfl⟩
  · rw [h.offeredTo_other hne] at hg
    cases hg

/-- A connection is offered a frame that is sent to some connections when it is one of them. -/
theorem Broadcast.mem_offeredTo {connections : List ConnectionPtr}
    (h : Broadcast f connections es) {g : Frame} (hg : g ∈ offeredTo c es) :
  g = f ∧ some c ∈ connections
  := by
  induction h with
  | nil => cases hg
  | null _ ih =>
    obtain ⟨heq, hmem⟩ := ih hg
    exact ⟨heq, List.mem_cons_of_mem _ hmem⟩
  | cons hsent _ ih =>
    rw [offeredTo_append] at hg
    rcases List.mem_append.mp hg with hg | hg
    · obtain ⟨heq, rfl⟩ := hsent.mem_offeredTo hg
      exact ⟨heq, List.mem_cons_self⟩
    · obtain ⟨heq, hmem⟩ := ih hg
      exact ⟨heq, List.mem_cons_of_mem _ hmem⟩

/-- A connection is offered a snapshot that is sent to some connections once at most. -/
theorem SnapshotCast.offeredTo {connections : List ConnectionPtr}
    (h : SnapshotCast f connections es) (hfits : Codec.Fits f) (hnodup : connections.Nodup)
    (c : ConnId) :
  offeredTo c es = [] ∨ some c ∈ connections ∧ RoomServer.offeredTo c es = [f]
  := by
  induction h with
  | nil => exact .inl rfl
  | null _ ih =>
    rw [List.nodup_cons] at hnodup
    obtain hnone | ⟨hmem, hone⟩ := ih hnodup.2
    · exact .inl hnone
    · exact .inr ⟨List.mem_cons_of_mem _ hmem, hone⟩
  | @skipped c' connections es _ ih =>
    rw [List.nodup_cons] at hnodup
    have heq : RoomServer.offeredTo c (.skipped c' :: es) = RoomServer.offeredTo c es := rfl
    rw [heq]
    obtain hnone | ⟨hmem, hone⟩ := ih hnodup.2
    · exact .inl hnone
    · exact .inr ⟨List.mem_cons_of_mem _ hmem, hone⟩
  | @sent c' connections es accepted _ ih =>
    rw [List.nodup_cons] at hnodup
    have heq : RoomServer.offeredTo c (.sent c' (Codec.frameBytes f) accepted :: es)
        = (if c' = c then [f] else []) ++ RoomServer.offeredTo c es := by
      simp [RoomServer.offeredTo, readFrames_frameBytes hfits]
    rw [heq]
    obtain hnone | ⟨hmem, hone⟩ := ih hnodup.2
    · rw [hnone, List.append_nil]
      split
      · next hcc =>
        subst hcc
        exact .inr ⟨List.mem_cons_self, rfl⟩
      · exact .inl rfl
    · right
      have hne : c' ≠ c := by
        rintro rfl
        apply hnodup.1 hmem
      rw [if_neg hne, hone]
      exact ⟨List.mem_cons_of_mem _ hmem, rfl⟩

/-- A connection that is listed for one room at most is offered one snapshot at most. -/
theorem Snapshots.offeredTo {results : List RoomManager.TickResult} (h : Snapshots results es)
    (hnodup : ∀ result ∈ results, result.notifyConnections.Nodup)
    (honce : results.Pairwise fun result result' =>
      some c ∈ result.notifyConnections → some c ∉ result'.notifyConnections) :
  RoomServer.offeredTo c es = []
    ∨ ∃ result ∈ results, some c ∈ result.notifyConnections ∧ ∃ payload,
      Protocol.encodeStateSnapshot result.roomId result.tickId result.snapshot = some payload
      ∧ RoomServer.offeredTo c es = [⟨MessageType.stateSnapshot.toU16, payload⟩]
  := by
  induction h with
  | nil => exact .inl rfl
  | pass _ ih =>
    obtain hnone | ⟨result, hmem, hone⟩ := ih (List.forall_mem_cons.mp hnodup).2
      (List.pairwise_cons.mp honce).2
    · exact .inl hnone
    · exact .inr ⟨result, List.mem_cons_of_mem _ hmem, hone⟩
  | @cons result results payload es es' hpayload hfits hes hrest ih =>
    obtain ⟨hfirst, hothers⟩ := List.pairwise_cons.mp honce
    rw [offeredTo_append]
    obtain hnone | ⟨hmem, hone⟩ := hes.offeredTo hfits (hnodup result List.mem_cons_self) c
    · rw [hnone, List.nil_append]
      obtain hnone | ⟨result', hmem', hone⟩ := ih (List.forall_mem_cons.mp hnodup).2 hothers
      · exact .inl hnone
      · exact .inr ⟨result', List.mem_cons_of_mem _ hmem', hone⟩
    · right
      refine ⟨result, List.mem_cons_self, hmem, payload, hpayload, ?_⟩
      rw [hone]
      obtain hnone | ⟨result', hmem', hlisted, -⟩ := ih (List.forall_mem_cons.mp hnodup).2 hothers
      · rw [hnone]
        rfl
      · exact absurd hlisted (hfirst result' hmem' hmem)

theorem Talks.tick_eq_none (h : Talks r f) : f.tick = none := by
  cases h <;> rfl

theorem tick_eq_none_of_error (h : f.type = MessageType.error.toU16) : f.tick = none := by
  rw [Frame.tick, h]
  rfl

theorem Denied.mem_offeredTo {c' : ConnId} {requestType : MessageType}
    (h : Denied c' requestType es) (hf : f ∈ offeredTo c es) :
  f.type = MessageType.error.toU16
  := by
  obtain ⟨errorCode, hes⟩ := h
  rw [(hes.mem_offeredTo hf).1]

/-- A connection that a room lists is listed by a room with the same members and more. -/
theorem Room.mem_connections_of_lookup {room room' : Room} {excluded : UInt64}
    {ptr : ConnectionPtr} (h : ∀ k member, room.members.lookup k = some member →
      room'.members.lookup k = some member) (hptr : ptr ∈ room.connections excluded) :
  ptr ∈ room'.connections excluded
  := by
  rw [mem_connections] at hptr ⊢
  obtain ⟨k, member, c, hmember, hne, hconn, heq⟩ := hptr
  exact ⟨k, member, c, h k member hmember, hne, hconn, heq⟩

namespace RoomService

variable {service service' service'' : RoomService} {L : Ledger} {fs fs' : List Frame}

/-! ### Seats -/

/-- The place of the player the connection is bound to. -/
def seatOf (service : RoomService) (c : ConnId) : Option Seat := do
  let token ← service.sessionManager.bindings.lookup c
  let session ← service.sessionManager.sessions.lookup token
  return session.seat

theorem seatOf_of_binding {token : Bytes} {session : Session}
    (hbinding : service.sessionManager.bindings.lookup c = some token)
    (hsession : service.sessionManager.sessions.lookup token = some session) :
  service.seatOf c = some session.seat
  := by simp [seatOf, hbinding, hsession]

theorem seatOf_of_notMem (hc : c ∉ service.sessionManager.bindings) :
  service.seatOf c = none
  := by simp [seatOf, AList.lookup_eq_none.mpr hc]

theorem seatOf_eq_some_iff (hL : service.Represents L) {seat : Seat} :
  service.seatOf c = some seat ↔ ∃ t, L.claim t = some (seat, some c)
  := by
  constructor
  · intro h
    simp only [seatOf, Option.bind_eq_bind, Option.bind_eq_some_iff, Option.pure_def,
      Option.some.injEq] at h
    obtain ⟨token, hbinding, session, hsession, rfl⟩ := h
    obtain ⟨session', hsession', hconn, -⟩ := hL.session_of_binding hbinding
    rw [hsession, Option.some.injEq] at hsession'
    subst hsession'
    use token
    rw [hL.claim_of_session hsession, hconn]
  · rintro ⟨t, ht⟩
    obtain ⟨session, hsession, hseat, -⟩ := hL.session_of_claim ht
    rw [seatOf_of_binding (hL.binding.mpr ⟨seat, ht⟩) hsession, hseat]

/-- The seat of a connection depends on its binding and on the places of the sessions. -/
theorem seatOf_congr
    (hbinding : service'.sessionManager.bindings.lookup c
      = service.sessionManager.bindings.lookup c)
    (hsession : ∀ t, service.sessionManager.bindings.lookup c = some t →
      (service'.sessionManager.sessions.lookup t).map Session.seat
        = (service.sessionManager.sessions.lookup t).map Session.seat) :
  service'.seatOf c = service.seatOf c
  := by
  have hbind : ∀ service : RoomService, service.seatOf c
      = (service.sessionManager.bindings.lookup c).bind
        fun t => (service.sessionManager.sessions.lookup t).map Session.seat := by
    intro service
    rw [seatOf, Option.bind_eq_bind]
    congr
    funext t
    cases service.sessionManager.sessions.lookup t <;> rfl
  rw [hbind, hbind, hbinding]
  cases h : service.sessionManager.bindings.lookup c with
  | none => rfl
  | some t => apply hsession t h

/-- A connection that a room lists is that of a member. -/
theorem seatOf_of_mem_connections (hL : service.Represents L) {room : Room}
    (hroom : service.roomManager.rooms.lookup r = some room) {excluded : UInt64}
    (h : some c ∈ room.connections excluded) :
  ∃ p, service.seatOf c = some (r, p) ∧ p ≠ excluded ∧ p ∈ room.members
  := by
  rw [Room.mem_connections] at h
  obtain ⟨p, member, c', hmember, hne, hconn, heq⟩ := h
  cases heq
  refine ⟨p, ?_, hne, AList.mem_iff_lookup.mpr ⟨member, hmember⟩⟩
  have hmember' := hmember
  rw [← RoomManager.member_eq hroom] at hmember'
  apply (seatOf_eq_some_iff hL).mpr
  apply hL.member.mp (show _ = some (some c) by rw [hmember', ← hconn]; rfl)

/-- A room lists the connections of its members. -/
theorem listed_iff (hL : service.Represents L) {room : Room}
    (hroom : service.roomManager.rooms.lookup r = some room) :
  some c ∈ room.connections 0 ↔ ∃ p, service.seatOf c = some (r, p)
  := by
  constructor
  · intro h
    obtain ⟨p, hp, -⟩ := seatOf_of_mem_connections hL hroom h
    exact ⟨p, hp⟩
  · rintro ⟨p, hp⟩
    obtain ⟨t, ht⟩ := (seatOf_eq_some_iff hL).mp hp
    obtain ⟨room', member, hroom', hmember, hconn⟩ := hL.member_of_claim ht
    rw [hroom, Option.some.injEq] at hroom'
    subst hroom'
    have hmem := AList.mem_iff_lookup.mpr ⟨member, hmember⟩
    apply Room.mem_connections.mpr
      ⟨p, member, c, hmember, (hL.valid.valid hroom).id_ne_zero hmem, hconn, rfl⟩

/-- The room of a connection with a player. -/
theorem room_of_seatOf (hL : service.Represents L) (h : service.seatOf c = some (r, p)) :
  ∃ room, service.roomManager.rooms.lookup r = some room ∧ p ∈ room.members
  := by
  obtain ⟨t, ht⟩ := (seatOf_eq_some_iff hL).mp h
  obtain ⟨room, member, hroom, hmember, -⟩ := hL.member_of_claim ht
  exact ⟨room, hroom, AList.mem_iff_lookup.mpr ⟨member, hmember⟩⟩

/-! ### What a connection hears -/

/-- No room is lost, and no room goes back in time. -/
def Onward (manager manager' : RoomManager) : Prop :=
  ∀ r room, manager.rooms.lookup r = some room →
    ∃ room', manager'.rooms.lookup r = some room' ∧ room.tickId ≤ room'.tickId

theorem onward_refl (manager : RoomManager) : Onward manager manager :=
  fun _ room hroom => ⟨room, hroom, UInt64.le_refl _⟩

theorem Onward.trans {manager manager' manager'' : RoomManager} (h : Onward manager manager')
    (h' : Onward manager' manager'') :
  Onward manager manager''
  := by
  intro r room hroom
  obtain ⟨room', hroom', hle⟩ := h r room hroom
  obtain ⟨room'', hroom'', hle'⟩ := h' r room' hroom'
  exact ⟨room'', hroom'', UInt64.le_trans hle hle'⟩

theorem onward_setRoom {manager : RoomManager} {room room' : Room}
    (hroom : manager.rooms.lookup r = some room) (htick : room'.tickId = room.tickId) :
  Onward manager (manager.setRoom r room')
  := by
  intro r' room'' hroom''
  rw [RoomManager.lookup_setRoom hroom]
  split
  · next hr =>
    subst hr
    rw [hroom, Option.some.injEq] at hroom''
    subst hroom''
    exact ⟨room', rfl, by rw [htick]; exact UInt64.le_refl _⟩
  · exact ⟨room'', hroom'', UInt64.le_refl _⟩

/-- The connection keeps its seat, and is offered errors and what the members of its room do. -/
structure Chatter (service service' : RoomService) (c : ConnId) (fs : List Frame) : Prop where
  seat : service'.seatOf c = service.seatOf c
  onward : Onward service.roomManager service'.roomManager
  frames : ∀ f ∈ fs, f.type = MessageType.error.toU16
    ∨ ∃ r p, service.seatOf c = some (r, p) ∧ Talks r f

/-- The messages for a connection without a player. -/
def farewellTypes : List MessageType := [.error, .leaveOk, .heartbeatAck]

/-- What a connection is offered by an action, by its seats before and after it. -/
inductive Hears (service service' : RoomService) (c : ConnId) : List Frame → Prop
  | quiet {fs : List Frame} (hseat : service'.seatOf c = none)
      (h : ∀ f ∈ fs, f.type ∈ farewellTypes.map MessageType.toU16) : Hears service service' c fs
  | opens {r : UInt32} {p : UInt64} {room : Room} {f : Frame}
      (hbefore : service.seatOf c = none)
      (hseat : service'.seatOf c = some (r, p))
      (hroom : service'.roomManager.rooms.lookup r = some room) (h : Opens r p f)
      (htick : ∀ tick, f.tick = some tick → tick ≤ room.tickId) : Hears service service' c [f]
  | talks {r : UInt32} {p : UInt64} {room room' : Room} {fs : List Frame}
      (hbefore : service.seatOf c = some (r, p))
      (hseat : service'.seatOf c = some (r, p))
      (hroom : service.roomManager.rooms.lookup r = some room)
      (hroom' : service'.roomManager.rooms.lookup r = some room')
      (htick : room.tickId ≤ room'.tickId)
      (h : ∀ f ∈ fs, f.type = MessageType.error.toU16 ∨ Talks r f) :
      Hears service service' c fs
  | shows {r : UInt32} {p : UInt64} {room room' : Room} {f : Frame}
      (hbefore : service.seatOf c = some (r, p))
      (hseat : service'.seatOf c = some (r, p))
      (hroom : service.roomManager.rooms.lookup r = some room)
      (hroom' : service'.roomManager.rooms.lookup r = some room')
      (htick : room.tickId < room'.tickId) (h : Shows r p room' f) : Hears service service' c [f]

theorem Chatter.append (h : Chatter service service' c fs)
    (h' : Chatter service' service'' c fs') :
  Chatter service service'' c (fs ++ fs')
  := by
  constructor
  · rw [h'.seat, h.seat]
  · apply h.onward.trans h'.onward
  · intro f hf
    rcases List.mem_append.mp hf with hf | hf
    · apply h.frames f hf
    · rw [← h.seat]
      apply h'.frames f hf

theorem chatter_of_errors (h : ∀ f ∈ fs, f.type = MessageType.error.toU16) :
  Chatter service service c fs
  := ⟨rfl, onward_refl _, fun f hf => .inl (h f hf)⟩

theorem Chatter.hears (h : Chatter service service' c fs) (hL : service.Represents L) :
  Hears service service' c fs
  := by
  cases hseat : service.seatOf c with
  | none =>
    apply Hears.quiet (h.seat.trans hseat)
    intro f hf
    rcases h.frames f hf with htype | ⟨r, p, hsome, -⟩
    · rw [htype]
      decide
    · rw [hseat] at hsome
      cases hsome
  | some seat =>
    obtain ⟨r, p⟩ := seat
    obtain ⟨room, hroom, -⟩ := room_of_seatOf hL hseat
    obtain ⟨room', hroom', htick⟩ := h.onward r room hroom
    apply Hears.talks hseat (h.seat.trans hseat) hroom hroom' htick
    intro f hf
    rcases h.frames f hf with htype | ⟨r', p', hsome, htalks⟩
    · exact .inl htype
    · rw [hseat, Option.some.injEq, Prod.mk.injEq] at hsome
      rw [hsome.1]
      exact .inr htalks

/-! ### Small rooms -/

/-- The rooms have few places. -/
def Small (manager : RoomManager) : Prop :=
  ∀ r room, manager.rooms.lookup r = some room → room.capacity ≤ 101

/-- The members of a small room take few bytes. -/
theorem membersSize_le_of_small {room : Room} (hvalid : room.Valid) (hsmall : room.capacity ≤ 101) :
  membersSize room ≤ 42 * 101
  := by
  have hnames : ∀ info ∈ room.members.values.map Room.Member.info,
      Protocol.NameFits info.playerName := by
    intro info hinfo
    obtain ⟨member, hmember, rfl⟩ := List.mem_map.mp hinfo
    obtain ⟨k, hk⟩ := AList.mem_values.mp hmember
    apply hvalid.name_fits hk
  have hle := Protocol.membersSize_le hnames
  have hlength : (room.members.values.map Room.Member.info).length = room.members.size := by
    rw [List.length_map, AList.values, List.length_map]
    rfl
  have hcapacity : room.capacity.toNat ≤ 101 := UInt64.le_iff_toNat_le.mp hsmall
  have hsize := hvalid.size_le
  rw [hlength] at hle
  rw [membersSize]
  omega

/-- There are no more players than members. -/
theorem size_players_le {room : Room} (hvalid : room.Valid) :
  room.gameState.players.size ≤ room.members.size
  := by
  apply AList.size_le_of_subset
  intro k hk
  by_cases hwaiting : room.stateMachine.state = .waiting
  · exact absurd hk (hvalid.game_empty hwaiting)
  · apply (hvalid.mem_game hwaiting).mp hk

/-! ### What is heard of a request -/

theorem Filled.tickId_eq {room room' : Room} {name : Bytes} {c₀ : ConnId}
    (h : Filled room name c₀ room') (hvalid : room.Valid) (hadmits : room.Admits name) :
  room'.tickId = room.tickId
  := by
  cases h with
  | waits => rfl
  | starts _ hstart =>
    obtain ⟨-, -, heq, -⟩ := Room.start_spec (hvalid.enrol hadmits (some c₀)) hstart
    rw [heq, hvalid.tick_eq_zero hadmits.waiting]

section Joined

variable {name response token : Bytes} {c₀ : ConnId} {room room' : Room}

/-- The service behind a join that is committed. -/
def enrolled (service : RoomService) (r : UInt32) (room room' : Room) (token : Bytes)
    (c₀ : ConnId) : RoomService :=
  ⟨service.roomManager.setRoom r room', { service.sessionManager with
    sessions := service.sessionManager.sessions.insert token
      (.newOnline r room.nextPlayerId (some c₀))
    bindings := service.sessionManager.bindings.insert c₀ token }⟩

/-- The new member has its seat. -/
theorem seatOf_enrolled_self (service : RoomService) (r : UInt32) (room room' : Room)
    (token : Bytes) (c₀ : ConnId) :
  (service.enrolled r room room' token c₀).seatOf c₀ = some (r, room.nextPlayerId)
  := by
  have hbinding : (service.enrolled r room room' token c₀).sessionManager.bindings.lookup c₀
      = some token := AList.lookup_insert _
  have hsession : (service.enrolled r room room' token c₀).sessionManager.sessions.lookup token
      = some (.newOnline r room.nextPlayerId (some c₀)) := AList.lookup_insert _
  apply seatOf_of_binding hbinding hsession

/-- The others keep their seats. -/
theorem seatOf_enrolled_of_ne (hL : service.Represents L)
    (hnew : token ∉ service.sessionManager.sessions) (hcc : c ≠ c₀) (r : UInt32)
    (room room' : Room) :
  (service.enrolled r room room' token c₀).seatOf c = service.seatOf c
  := by
  apply seatOf_congr
  · rw [enrolled, AList.lookup_insert_ne hcc]
  · intro t ht
    obtain ⟨session, hsession, -⟩ := hL.session_of_binding ht
    have hne : t ≠ token := by
      rintro rfl
      apply hnew (AList.mem_iff_lookup.mpr ⟨session, hsession⟩)
    rw [enrolled, AList.lookup_insert_ne hne]

/-- Who hears of the new member is another member. -/
theorem talks_of_playerJoined (hL' : (service.enrolled r room room' token c₀).Represents L)
    (hroom : service.roomManager.rooms.lookup r = some room) (hname : Protocol.NameFits name)
    (hmembers : room'.members = (room.enrol name (some c₀)).members)
    (hes : Broadcast ⟨MessageType.playerJoined.toU16, Protocol.appendU32 r
        ++ Protocol.appendMember ⟨room.nextPlayerId, name⟩⟩
      ((room.enrol name (some c₀)).connections room.nextPlayerId) es) :
  ∀ f ∈ offeredTo c es, Talks r f ∧ ∃ p,
    (service.enrolled r room room' token c₀).seatOf c = some (r, p) ∧ p ≠ room.nextPlayerId
  := by
  intro f hf
  obtain ⟨rfl, hlisted⟩ := hes.mem_offeredTo hf
  use .playerJoined (Protocol.parsePlayerJoined_append r hname)
  have hlookup : (service.enrolled r room room' token c₀).roomManager.rooms.lookup r
      = some room' := by
    rw [enrolled, RoomManager.lookup_setRoom hroom, if_pos rfl]
  have hlisted' : some c ∈ room'.connections room.nextPlayerId := by
    rw [Room.connections, hmembers]
    exact hlisted
  obtain ⟨p, hp, hne, -⟩ := seatOf_of_mem_connections hL' hlookup hlisted'
  exact ⟨p, hp, hne⟩

/-- The answer to a join in a small room fits into a frame. -/
theorem fits_joinOk (hvalid : room.Valid) (hsmall : room.capacity ≤ 101)
    (hresponse : Protocol.encodeJoinOk r room.nextPlayerId token
      (room.members.values.map Room.Member.info) = some response) :
  Codec.Fits ⟨MessageType.joinOk.toU16, response⟩
  := by
  obtain ⟨⟨-, hlen⟩, -⟩ := Protocol.encodeJoinOk_eq_some_iff.mp ⟨response, hresponse⟩
  have hsize := membersSize_le_of_small hvalid hsmall
  rw [Codec.Fits, Protocol.length_encodeJoinOk hresponse]
  rw [membersSize] at hsize
  simp only [Protocol.maxTokenSize] at hlen
  omega

end Joined

theorem JoinOutcome.hears {payload token : Bytes} {c₀ : ConnId} (hL : service.Represents L)
    (hsmall : Small service.roomManager) (h : JoinOutcome service c₀ payload token service' es)
    (c : ConnId) :
  Hears service service' c (offeredTo c es)
  := by
  obtain ⟨L', hL'⟩ := h.transacts.represents hL
  cases h with
  | denied _ hes => apply (chatter_of_errors fun f => hes.mem_offeredTo).hears hL
  | @undone request room _ _ hroom =>
    have honward : Onward service.roomManager
        (service.roomManager.setRoom request.roomId room.skipId) := onward_setRoom hroom rfl
    apply Chatter.hears ⟨by rfl, honward, by simp [offeredTo]⟩ hL
  | @committed request room room' response es es' _ hc hroom hadmits hwelcomes hroom' hresponse
      hes hes' =>
    have hvalid := hL.valid.valid hroom
    have hothers := talks_of_playerJoined (c := c) hL' hroom hadmits.name_fits
      (hroom'.spec hvalid hadmits).1 hes'
    rw [offeredTo_append]
    by_cases hcc : c = c₀
    · subst hcc
      have hseat := seatOf_enrolled_self service request.roomId room room' token c
      have hnone : offeredTo c es' = [] := by
        apply List.eq_nil_iff_forall_not_mem.mpr
        intro f hf
        obtain ⟨-, p, hp, hne⟩ := hothers f hf
        rw [hseat, Option.some.injEq, Prod.mk.injEq] at hp
        apply hne hp.2.symm
      rw [hes.offeredTo_self (fits_joinOk hvalid (hsmall _ room hroom) hresponse), hnone,
        List.append_nil]
      have hlookup : (service.enrolled request.roomId room room' token c).roomManager.rooms.lookup
          request.roomId = some room' := by
        rw [enrolled, RoomManager.lookup_setRoom hroom, if_pos rfl]
      apply Hears.opens (seatOf_of_notMem hc) hseat hlookup
        (.joinOk (Protocol.parseJoinOk_of_encodeJoinOk hresponse))
      rintro tick ⟨⟩
    · rw [hes.offeredTo_other (Ne.symm hcc), List.nil_append]
      have hsame := seatOf_enrolled_of_ne hL hwelcomes.token_new hcc request.roomId room room'
      have honward := onward_setRoom hroom (hroom'.tickId_eq hvalid hadmits)
      apply Chatter.hears ⟨hsame, honward, fun f hf => .inr ?_⟩ hL
      obtain ⟨htalks, p, hp, -⟩ := hothers f hf
      exact ⟨request.roomId, p, hsame ▸ hp, htalks⟩

/-- A session that keeps its place is written back. -/
theorem map_seat_assign {token : Bytes} {session session' : Session}
    (hsession : service.sessionManager.sessions.lookup token = some session)
    (hseat : session'.seat = session.seat) (t : Bytes) :
  ((service.sessionManager.sessions.assign token session').lookup t).map Session.seat
    = (service.sessionManager.sessions.lookup t).map Session.seat
  := by
  rw [AList.lookup_assign_of_mem (AList.mem_iff_lookup.mpr ⟨session, hsession⟩)]
  split
  · next ht => rw [ht, hsession, Option.map_some, Option.map_some, hseat]
  · rfl

/-- The answer to a resume in a small room fits into a frame. -/
theorem fits_resumeOk {room : Room} {member : Room.Member} {p : UInt64} {response : Bytes}
    (hvalid : room.Valid) (hsmall : room.capacity ≤ 101)
    (hmember : room.members.lookup p = some member) (connection : ConnectionPtr)
    (hresponse : Protocol.encodeResumeOk r p room.stateMachine.state room.tickId
      (room.seat member connection).memberSnapshot room.gameState.snapshot = some response) :
  Codec.Fits ⟨MessageType.resumeOk.toU16, response⟩
  := by
  obtain ⟨hseated, -⟩ := membersSize_memberSnapshot hvalid hmember connection
  have hsize := membersSize_le_of_small hvalid hsmall
  have hplayers := size_players_le hvalid
  have hplaces := hvalid.size_le
  have hcapacity : room.capacity.toNat ≤ 101 := UInt64.le_iff_toNat_le.mp hsmall
  rw [Codec.Fits, Protocol.length_encodeResumeOk hresponse, hseated, Gamestate.length_snapshot]
  omega

theorem ResumeOutcome.hears {payload : Bytes} {now : Int} {c₀ : ConnId}
    (hL : service.Represents L) (hsmall : Small service.roomManager)
    (h : ResumeOutcome service c₀ payload now service' es) (c : ConnId) :
  Hears service service' c (offeredTo c es)
  := by
  generalize hservice : service' = resumed at h
  rw [← hservice]
  cases h with
  | denied _ hes =>
    rw [hservice]
    apply (chatter_of_errors fun f => hes.mem_offeredTo).hears hL
  | ignored =>
    rw [hservice]
    apply (chatter_of_errors (by simp [offeredTo])).hears hL
  | undone =>
    rw [hservice]
    apply (chatter_of_errors (by simp [offeredTo])).hears hL
  | @committed request session room member response _ _ hc hsession _ hroom hmember hresponse
      hes =>
    have hvalid := hL.valid.valid hroom
    have hbindings : service'.sessionManager.bindings
        = service.sessionManager.bindings.insert c₀ request.token := by rw [hservice]
    have hsessions : service'.sessionManager.sessions = service.sessionManager.sessions.assign
        request.token { session with connection := some c₀, state := .online } := by
      rw [hservice]
    by_cases hcc : c = c₀
    · subst hcc
      have hfits := fits_resumeOk hvalid (hsmall _ room hroom) hmember (some c) hresponse
      have hseat : service'.seatOf c = some (session.roomId, session.playerId) := by
        have hbinding : service'.sessionManager.bindings.lookup c = some request.token := by
          rw [hbindings, AList.lookup_insert]
        have hresumed : service'.sessionManager.sessions.lookup request.token
            = some { session with connection := some c, state := .online } := by
          rw [hsessions,
            AList.lookup_assign_of_mem (AList.mem_iff_lookup.mpr ⟨session, hsession⟩), if_pos rfl]
        rw [seatOf_of_binding hbinding hresumed]
        rfl
      have hlookup : service'.roomManager.rooms.lookup session.roomId
          = some (room.seat member (some c)) := by
        rw [hservice, RoomManager.lookup_setRoom hroom, if_pos rfl]
      have htick := Protocol.parseResumeTick_of_encodeResumeOk hresponse
      rw [hes.offeredTo_self hfits]
      apply Hears.opens (seatOf_of_notMem hc) hseat hlookup
        (.resumeOk (Protocol.parseResumeOk_of_encodeResumeOk hresponse) htick)
      intro tick hresumed
      rw [show Frame.tick ⟨MessageType.resumeOk.toU16, response⟩ = _ from htick] at hresumed
      cases hresumed
      apply UInt64.le_refl _
    · have hsame : service'.seatOf c = service.seatOf c := by
        apply seatOf_congr
        · rw [hbindings, AList.lookup_insert_ne hcc]
        · intro t _
          rw [hsessions]
          apply map_seat_assign hsession (by rfl) t
      have honward : Onward service.roomManager service'.roomManager := by
        rw [hservice]
        exact onward_setRoom hroom rfl
      rw [hes.offeredTo_other (Ne.symm hcc)]
      apply Chatter.hears ⟨hsame, honward, by simp⟩ hL

/-- Those who hear that a member has left are the members that are left. -/
theorem talks_of_playerLeft (hL : service.Represents L) {room : Room}
    (hroom : service.roomManager.rooms.lookup r = some room)
    (hes : Broadcast ⟨MessageType.playerLeft.toU16, Protocol.appendU32 r ++ Protocol.appendU64 p⟩
      (room.connections 0) es) :
  ∀ f ∈ offeredTo c es, ∃ r p, service.seatOf c = some (r, p) ∧ Talks r f
  := by
  intro f hf
  obtain ⟨rfl, hlisted⟩ := hes.mem_offeredTo hf
  obtain ⟨p', hp', -⟩ := seatOf_of_mem_connections hL hroom hlisted
  exact ⟨r, p', hp', .playerLeft (Protocol.parsePlayerLeft_append r p)⟩

theorem LeaveOutcome.hears {c₀ : ConnId} (hL : service.Represents L)
    (h : LeaveOutcome service c₀ service' es) (c : ConnId) :
  Hears service service' c (offeredTo c es)
  := by
  generalize hservice : service' = left at h
  rw [← hservice]
  cases h with
  | denied hes =>
    rw [hservice]
    apply (chatter_of_errors fun f => hes.mem_offeredTo).hears hL
  | @left token session room es es' hbinding hsession hconn hroom hes hes' =>
    have hL' := hL.remove hsession hroom (lookup_erase_binding hL hbinding)
    rw [← hservice] at hL'
    have hlookup : service'.roomManager.rooms.lookup session.roomId
        = some (room.dismiss session.playerId) := by
      rw [hservice, RoomManager.lookup_setRoom hroom, if_pos rfl]
    have hbindings : service'.sessionManager.bindings
        = service.sessionManager.bindings.erase c₀ := by rw [hservice]
    have hsessions : service'.sessionManager.sessions
        = service.sessionManager.sessions.erase token := by rw [hservice]
    have hothers := talks_of_playerLeft (c := c) hL' hlookup hes'
    rw [offeredTo_append]
    by_cases hcc : c = c₀
    · subst hcc
      have hseat : service'.seatOf c = none := by
        apply seatOf_of_notMem
        rw [hbindings]
        exact fun hmem => (AList.mem_erase.mp hmem).1 rfl
      apply Hears.quiet hseat
      intro f hf
      rcases List.mem_append.mp hf with hf | hf
      · rw [(hes.mem_offeredTo hf).1]
        apply List.mem_map_of_mem (show MessageType.leaveOk ∈ farewellTypes by decide)
      · obtain ⟨r, p, hsome, -⟩ := hothers f hf
        rw [hseat] at hsome
        cases hsome
    · have hsame : service'.seatOf c = service.seatOf c := by
        apply seatOf_congr
        · rw [hbindings, AList.lookup_erase_ne hcc]
        · intro t ht
          have hne : t ≠ token := by
            rintro rfl
            have hkept := (lookup_erase_binding hL hbinding c t).mp
            rw [AList.lookup_erase_ne hcc] at hkept
            apply (hkept ht).1 rfl
          rw [hsessions, AList.lookup_erase_ne hne]
      have honward : Onward service.roomManager service'.roomManager := by
        rw [hservice]
        exact onward_setRoom hroom rfl
      rw [hes.offeredTo_other (Ne.symm hcc), List.nil_append]
      rw [hsame] at hothers
      apply Chatter.hears ⟨hsame, honward, fun f hf => .inr (hothers f hf)⟩ hL

theorem ChatOutcome.hears {c₀ : ConnId} (hL : service.Represents L)
    (h : ChatOutcome service c₀ es) (c : ConnId) :
  Hears service service c (offeredTo c es)
  := by
  cases h with
  | denied hes => apply (chatter_of_errors fun f => hes.mem_offeredTo).hears hL
  | @said _ session room _ _ _ _ _ hroom _ _ hmessage hes =>
    apply Chatter.hears ⟨rfl, onward_refl _, fun f hf => .inr ?_⟩ hL
    obtain ⟨rfl, hlisted⟩ := hes.mem_offeredTo hf
    obtain ⟨p, hp, -⟩ := seatOf_of_mem_connections hL hroom hlisted
    exact ⟨session.roomId, p, hp, .chatEvent (Protocol.parseChatEvent_append _ _ hmessage)⟩

theorem CommandOutcome.hears {c₀ : ConnId} {requestType : MessageType}
    (hL : service.Represents L) (h : CommandOutcome service c₀ requestType service' es)
    (c : ConnId) :
  Hears service service' c (offeredTo c es)
  := by
  cases h with
  | denied hes => apply (chatter_of_errors fun f => hes.mem_offeredTo).hears hL
  | collected _ _ hroom =>
    apply Chatter.hears _ hL
    exact ⟨rfl, onward_setRoom hroom rfl, by simp [offeredTo]⟩

/-! ### What is heard of the other tasks -/

/-- A connection that is closed hears nothing, and neither does any other of it. -/
theorem hears_closed {c₀ : ConnId} {token : Bytes} {session : Session} {room : Room}
    {member : Room.Member} (hL : service.Represents L)
    (hsession : service.sessionManager.sessions.lookup token = some session)
    (hroom : service.roomManager.rooms.lookup session.roomId = some room) (deadline : Int)
    (c : ConnId) :
  Hears service
    ⟨service.roomManager.setRoom session.roomId (room.seat member none),
      { service.sessionManager with
        sessions := service.sessionManager.sessions.assign token
          { session with
            connection := none
            offlineDeadline := deadline
            state := .offline }
        bindings := service.sessionManager.bindings.erase c₀ }⟩ c []
  := by
  by_cases hcc : c = c₀
  · subst hcc
    apply Hears.quiet _ (by simp)
    apply seatOf_of_notMem
    exact fun hmem => (AList.mem_erase.mp hmem).1 rfl
  · apply Chatter.hears ⟨_, onward_setRoom hroom (by rfl), by simp⟩ hL
    apply seatOf_congr
    · apply AList.lookup_erase_ne hcc
    · intro t _
      apply map_seat_assign hsession (by rfl) t

/-- Nobody is bound to a player that is removed. -/
theorem seatOf_removed (hL : service.Represents L) {token : Bytes} {session : Session}
    (hsession : service.sessionManager.sessions.lookup token = some session)
    (hoffline : session.state = .offline) (room : Room) (c : ConnId) :
  (service.removed token session room).seatOf c = service.seatOf c
  := by
  apply seatOf_congr
  · rfl
  · intro t ht
    obtain ⟨hne, -⟩ := (lookup_binding_offline hL hsession hoffline c t).mp ht
    rw [removed, AList.lookup_erase_ne hne]

theorem Removals.chatter (h : Removals service service' es) (hL : service.Represents L)
    (c : ConnId) :
  Chatter service service' c (offeredTo c es)
  := by
  induction h generalizing L with
  | nil => apply chatter_of_errors (by simp [offeredTo])
  | @cons first last token session room es es' hsession hoffline hroom hes _ ih =>
    have hL' := removed_represents hL hsession hoffline hroom
    have hlookup : (first.removed token session room).roomManager.rooms.lookup session.roomId
        = some (room.dismiss session.playerId) := by
      rw [removed, RoomManager.lookup_setRoom hroom, if_pos rfl]
    have hsame := seatOf_removed hL hsession hoffline room c
    have hfirst : Chatter first (first.removed token session room) c (offeredTo c es) := by
      refine ⟨hsame, onward_setRoom hroom rfl, fun f hf => .inr ?_⟩
      rw [← hsame]
      apply talks_of_playerLeft hL' hlookup hes f hf
    rw [offeredTo_append]
    apply hfirst.append (ih hL')

/-- The rooms that run have ticks left. -/
def Lasting (manager : RoomManager) : Prop :=
  ∀ r room, manager.rooms.lookup r = some room → room.stateMachine.state = .running →
    room.tickId ≠ 0xffffffffffffffff

/-- A tick of a running room with ticks left brings it forward. -/
theorem tickId_lt_tickRoom {room : Room} (hrunning : room.stateMachine.state = .running)
    (hlasting : room.tickId ≠ 0xffffffffffffffff) :
  room.tickId < (RoomManager.tickRoom room).tickId
  := by
  have htick : (RoomManager.tickRoom room).tickId = room.tickId + 1 := by
    rw [RoomManager.tickRoom_eq, Room.tick, if_neg (not_not.mpr hrunning)]
  have hmax : room.tickId.toNat ≠ 0xffffffffffffffff :=
    fun heq => hlasting (UInt64.toNat_inj.mp heq)
  have hlt := room.tickId.toNat_lt
  rw [htick, UInt64.lt_iff_toNat_lt, UInt64.toNat_add]
  simp only [UInt64.reduceToNat]
  omega

theorem onward_tickRooms {manager : RoomManager} (hlasting : Lasting manager) :
  Onward manager manager.tickRooms.2
  := by
  intro r room hroom
  refine ⟨RoomManager.tickRoom room, ?_, ?_⟩
  · rw [RoomManager.lookup_tickRooms, hroom]
    rfl
  · by_cases hrunning : room.stateMachine.state = .running
    · apply UInt64.le_of_lt (tickId_lt_tickRoom hrunning (hlasting r room hroom hrunning))
    · rw [RoomManager.tickRoom, Room.state, if_pos hrunning]
      apply UInt64.le_refl _

/-- A snapshot that is sent after a tick shows the room. -/
theorem shows_of_tick {room : Room} (hvalid : room.Valid)
    {result : RoomManager.TickResult} (hresult : RoomManager.tickResult room = some result)
    (hid : room.roomId = r) (hp : p ∈ room.members) {payload : Bytes}
    (hpayload : Protocol.encodeStateSnapshot result.roomId result.tickId result.snapshot
      = some payload) :
  Shows r p (RoomManager.tickRoom room) ⟨MessageType.stateSnapshot.toU16, payload⟩
  := by
  obtain ⟨hrunning, hroomId, htickId, hsnapshot, -⟩ := RoomManager.tickResult_eq_some hresult
  rw [hroomId, hid, htickId, hsnapshot] at hpayload
  have hmembers : (RoomManager.tickRoom room).members = room.members := by
    rw [RoomManager.tickRoom_eq, Room.tick_members]
  have hvalid' : (RoomManager.tickRoom room).Valid := by
    rw [RoomManager.tickRoom_eq]
    apply hvalid.tick
  have hplaying : (RoomManager.tickRoom room).stateMachine.state ≠ .waiting := by
    rw [RoomManager.tickRoom_eq, Room.tick, if_neg (not_not.mpr hrunning)]
    dsimp only
    rw [hrunning]
    simp
  have hkeyed : (RoomManager.tickRoom room).gameState.Keyed := fun _ _ => hvalid'.game_key
  refine ⟨rfl, ⟨_, Protocol.parseStateSnapshot_of_encodeStateSnapshot hpayload, ?_, ?_⟩, ?_⟩
  · rw [List.pairwise_map]
    apply hkeyed.pairwise_snapshot
  · intro k
    rw [hkeyed.mem_ids_snapshot]
    apply hvalid'.mem_game hplaying
  · rw [hmembers]
    exact hp

/-- A connection is offered the snapshot of its room by a tick, or nothing. -/
theorem offeredTo_tick (hL : service.Represents L)
    (hes : Snapshots service.roomManager.tickRooms.1 es) (c : ConnId) :
  offeredTo c es = []
    ∨ ∃ r p room result payload, service.seatOf c = some (r, p) ∧ p ∈ room.members
      ∧ service.roomManager.rooms.lookup r = some room
      ∧ RoomManager.tickResult room = some result
      ∧ Protocol.encodeStateSnapshot result.roomId result.tickId result.snapshot = some payload
      ∧ offeredTo c es = [⟨MessageType.stateSnapshot.toU16, payload⟩]
  := by
  -- A snapshot is that of a room, for the members of the room.
  have hresults : ∀ result ∈ service.roomManager.tickRooms.1, ∃ r room,
      service.roomManager.rooms.lookup r = some room
      ∧ RoomManager.tickResult room = some result := by
    intro result hresult
    obtain ⟨room, hroom, hsome⟩ := List.mem_filterMap.mp hresult
    obtain ⟨r, hr⟩ := AList.mem_values.mp hroom
    exact ⟨r, room, hr, hsome⟩
  have hnodup : ∀ result ∈ service.roomManager.tickRooms.1, result.notifyConnections.Nodup := by
    intro result hresult
    obtain ⟨r, room, hroom, hsome⟩ := hresults result hresult
    rw [(RoomManager.tickResult_eq_some hsome).2.2.2.2]
    apply Room.nodup_connections
    intro k k' member member' c'
    apply members_inj hL hroom
  have honce : service.roomManager.tickRooms.1.Pairwise fun result result' =>
      some c ∈ result.notifyConnections → some c ∉ result'.notifyConnections := by
    rw [RoomManager.tickRooms, List.pairwise_filterMap, AList.values, List.pairwise_map]
    apply service.roomManager.rooms.nodupKeys.pairwise_ne.imp_of_mem
    intro entry entry' hmem hmem' hne result hresult result' hresult' hlisted hlisted'
    rw [(RoomManager.tickResult_eq_some hresult).2.2.2.2] at hlisted
    rw [(RoomManager.tickResult_eq_some hresult').2.2.2.2] at hlisted'
    obtain ⟨p, hp, -⟩ := seatOf_of_mem_connections hL (AList.mem_lookup_iff.mpr hmem) hlisted
    obtain ⟨p', hp', -⟩ := seatOf_of_mem_connections hL (AList.mem_lookup_iff.mpr hmem') hlisted'
    rw [hp, Option.some.injEq, Prod.mk.injEq] at hp'
    apply hne hp'.1
  obtain hnone | ⟨result, hresult, hlisted, payload, hpayload, hone⟩ :=
    hes.offeredTo (c := c) hnodup honce
  · exact .inl hnone
  · right
    obtain ⟨r, room, hroom, hsome⟩ := hresults result hresult
    rw [(RoomManager.tickResult_eq_some hsome).2.2.2.2] at hlisted
    obtain ⟨p, hp, -, hmem⟩ := seatOf_of_mem_connections hL hroom hlisted
    exact ⟨r, p, room, result, payload, hp, hmem, hroom, hsome, hpayload, hone⟩

theorem hears_tick (hL : service.Represents L) (hlasting : Lasting service.roomManager)
    (hes : Snapshots service.roomManager.tickRooms.1 es) (c : ConnId) :
  Hears service { service with roomManager := service.roomManager.tickRooms.2 } c
    (offeredTo c es)
  := by
  obtain hnone | ⟨r, p, room, result, payload, hp, hmem, hroom, hsome, hpayload, hone⟩ :=
    offeredTo_tick hL hes c
  · rw [hnone]
    exact Chatter.hears ⟨rfl, onward_tickRooms hlasting, by simp⟩ hL
  · have hrunning := (RoomManager.tickResult_eq_some hsome).1
    have hroom' : service.roomManager.tickRooms.2.rooms.lookup r
        = some (RoomManager.tickRoom room) := by
      rw [RoomManager.lookup_tickRooms, hroom]
      rfl
    rw [hone]
    exact .shows hp hp hroom hroom' (tickId_lt_tickRoom hrunning (hlasting r room hroom hrunning))
      (shows_of_tick (hL.valid.valid hroom) hsome (hL.valid.key hroom) hmem hpayload)

/-- What a connection hears of a task, when the rooms are small and have ticks left if they are
to tick. -/
theorem TaskOutcome.hears {task : Task} (hL : service.Represents L)
    (hsmall : Small service.roomManager)
    (hlasting : ∀ expirations, task = .tick expirations → expirations ≠ 0 →
      Lasting service.roomManager)
    (h : TaskOutcome service task service' es) (c : ConnId) :
  Hears service service' c (offeredTo c es)
  := by
  cases h with
  | idle => apply (chatter_of_errors (by simp [offeredTo])).hears hL
  | join _ h => apply h.hears hL hsmall c
  | resume h => apply h.hears hL hsmall c
  | leave h => apply h.hears hL c
  | chat h => apply h.hears hL c
  | command h => apply h.hears hL c
  | closed _ hsession hroom _ deadline => apply hears_closed hL hsession hroom deadline c
  | tick htask hexpirations hes =>
    apply hears_tick hL (hlasting _ htask hexpirations) hes c
  | timeouts h => apply (h.chatter hL c).hears hL

end RoomService

end RoomServer
