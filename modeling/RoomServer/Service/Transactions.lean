import RoomServer.Service.Coherence

/-!
# The tasks of the service as transactions

A `Transaction` is one change of the service that takes place in the rooms, the sessions and
the bindings together, with the events that announce it.  Every task is a sequence of
transactions: the exits of the handlers that take something back leave the service as it was,
up to the ids that were used up, and the exits that would leave it half changed are never
taken by a coherent service.
-/

namespace RoomServer

/-! ### What is sent -/

/-- The events of sending a frame to a connection. -/
inductive SentTo (c : ConnId) (f : Frame) : List Event → Prop
  | unfit (h : ¬Codec.Fits f) : SentTo c f []
  | accepted (h : Codec.Fits f) : SentTo c f [.sent c (Codec.frameBytes f) true]
  | refused (h : Codec.Fits f) :
      SentTo c f [.sent c (Codec.frameBytes f) false, .closeRequested c]

/-- The events of sending a frame to some connections one after the other. -/
inductive Broadcast (f : Frame) : List ConnectionPtr → List Event → Prop
  | nil : Broadcast f [] []
  | null {connections es} (h : Broadcast f connections es) : Broadcast f (none :: connections) es
  | cons {c connections es es'} (hc : SentTo c f es) (h : Broadcast f connections es') :
      Broadcast f (some c :: connections) (es ++ es')

/-- The events of sending a snapshot to some connections one after the other, of which some may
be passed over. -/
inductive SnapshotCast (f : Frame) : List ConnectionPtr → List Event → Prop
  | nil : SnapshotCast f [] []
  | null {connections es} (h : SnapshotCast f connections es) :
      SnapshotCast f (none :: connections) es
  | skipped {c connections es} (h : SnapshotCast f connections es) :
      SnapshotCast f (some c :: connections) (.skipped c :: es)
  | sent {c connections es} (accepted : Bool) (h : SnapshotCast f connections es) :
      SnapshotCast f (some c :: connections) (.sent c (Codec.frameBytes f) accepted :: es)

/-- The events of sending the snapshots of some rooms; that of a room may be left out. -/
inductive Snapshots : List RoomManager.TickResult → List Event → Prop
  | nil : Snapshots [] []
  | pass {result results es} (h : Snapshots results es) : Snapshots (result :: results) es
  | cons {result results payload es es'}
      (hpayload : Protocol.encodeStateSnapshot result.roomId result.tickId result.snapshot
        = some payload)
      (hfits : Codec.Fits ⟨MessageType.stateSnapshot.toU16, payload⟩)
      (hes : SnapshotCast ⟨MessageType.stateSnapshot.toU16, payload⟩ result.notifyConnections es)
      (h : Snapshots results es') : Snapshots (result :: results) (es ++ es')

/-- The messages that concern the members of a room. -/
def rosterTypes : List MessageType := [.joinOk, .resumeOk, .playerJoined, .playerLeft]

/-- The event sends no frame that concerns the members of a room. -/
def Event.Quiet : Event → Prop
  | .sent _ frame _ =>
    ∀ f ∈ (Codec.readFrames frame).frames, ∀ type ∈ rosterTypes, f.type ≠ type.toU16
  | _ => True

/-- The events send no frames that concern the members of a room. -/
def Quiet (es : List Event) : Prop := ∀ e ∈ es, e.Quiet

theorem quiet_nil : Quiet [] := by simp [Quiet]

theorem Quiet.append {es es' : List Event} (h : Quiet es) (h' : Quiet es') :
  Quiet (es ++ es')
  := by
  intro e he
  rcases List.mem_append.mp he with he | he
  · apply h e he
  · apply h' e he

theorem toU16_ne {type : MessageType} (h : type ∉ rosterTypes) :
  ∀ type' ∈ rosterTypes, type.toU16 ≠ type'.toU16
  := by
  intro type' hmem heq
  rw [MessageType.toU16_inj] at heq
  subst heq
  apply h hmem

theorem readFrames_frameBytes {f : Frame} (h : Codec.Fits f) :
  (Codec.readFrames (Codec.frameBytes f)).frames = [f]
  := by
  have hfits : ∀ g ∈ [f], Codec.Fits g := by simpa using h
  have hread := Codec.readFrames_flatMap hfits
  rw [List.flatMap_singleton] at hread
  rw [hread]

theorem quiet_sent {type : MessageType} (h : type ∉ rosterTypes) {payload : Bytes}
    (hfits : Codec.Fits ⟨type.toU16, payload⟩) (c : ConnId) (accepted : Bool) :
  (Event.sent c (Codec.frameBytes ⟨type.toU16, payload⟩) accepted).Quiet
  := by
  intro f hf type' hmem
  rw [readFrames_frameBytes hfits, List.mem_singleton] at hf
  rw [hf]
  apply toU16_ne h type' hmem

theorem SentTo.quiet {c : ConnId} {type : MessageType} (h : type ∉ rosterTypes)
    {payload : Bytes} {es : List Event} (hes : SentTo c ⟨type.toU16, payload⟩ es) :
  Quiet es
  := by
  cases hes with
  | unfit => exact quiet_nil
  | accepted hfits =>
    intro e he
    rw [List.mem_singleton] at he
    subst he
    apply quiet_sent h hfits c true
  | refused hfits =>
    intro e he
    rcases List.mem_cons.mp he with rfl | he
    · apply quiet_sent h hfits c false
    · rw [List.mem_singleton] at he
      subst he
      trivial

theorem Broadcast.quiet {type : MessageType} (h : type ∉ rosterTypes) {payload : Bytes}
    {connections : List ConnectionPtr} {es : List Event}
    (hes : Broadcast ⟨type.toU16, payload⟩ connections es) :
  Quiet es
  := by
  induction hes with
  | nil => exact quiet_nil
  | null _ ih => exact ih
  | cons hc _ ih => apply (hc.quiet h).append ih

theorem SnapshotCast.quiet {payload : Bytes}
    (hfits : Codec.Fits ⟨MessageType.stateSnapshot.toU16, payload⟩)
    {connections : List ConnectionPtr} {es : List Event}
    (h : SnapshotCast ⟨MessageType.stateSnapshot.toU16, payload⟩ connections es) :
  Quiet es
  := by
  induction h with
  | nil => exact quiet_nil
  | null _ ih => exact ih
  | skipped _ ih => apply List.forall_mem_cons.mpr ⟨trivial, ih⟩
  | sent accepted _ ih =>
    apply List.forall_mem_cons.mpr ⟨quiet_sent (by decide) hfits _ accepted, ih⟩

theorem Snapshots.quiet {results : List RoomManager.TickResult} {es : List Event}
    (h : Snapshots results es) :
  Quiet es
  := by
  induction h with
  | nil => exact quiet_nil
  | pass _ ih => exact ih
  | cons _ hfits hes _ ih => apply (hes.quiet hfits).append ih

namespace RoomService

theorem sendFrame_spec (answers : Answers) (events : List Event) (c : ConnId)
    (type : MessageType) (payload : Bytes) :
  ∃ es, (sendFrame answers events (some c) type payload).2 = events ++ es
    ∧ SentTo c ⟨type.toU16, payload⟩ es
  := by
  simp only [sendFrame]
  cases hframe : Codec.encode type.toU16 payload with
  | none =>
    use []
    rw [List.append_nil]
    use rfl
    apply SentTo.unfit
    intro hfits
    rw [Codec.encode_eq_some_iff.mpr ⟨hfits, rfl⟩] at hframe
    cases hframe
  | some frame =>
    obtain ⟨hfits, rfl⟩ := Codec.encode_eq_some_iff.mp hframe
    dsimp only
    split
    · exact ⟨_, rfl, .accepted hfits⟩
    · exact ⟨_, rfl, .refused hfits⟩

theorem broadcastLoop_spec (answers : Answers) {f : Frame} (hfits : Codec.Fits f)
    (events : List Event) (connections : List ConnectionPtr) :
  ∃ es, (broadcastLoop answers false (Codec.frameBytes f) events connections).2 = events ++ es
    ∧ Broadcast f connections es
  := by
  induction connections generalizing events with
  | nil => exact ⟨[], (List.append_nil events).symm, .nil⟩
  | cons connection connections ih =>
    cases connection with
    | none =>
      obtain ⟨es, heq, hes⟩ := ih events
      exact ⟨es, heq, .null hes⟩
    | some c =>
      rw [broadcastLoop, if_neg (by simp)]
      split
      · obtain ⟨es, heq, hes⟩ := ih (events ++ [.sent c (Codec.frameBytes f) true])
        refine ⟨_, ?_, .cons (.accepted hfits) hes⟩
        rw [heq, List.append_assoc]
      · obtain ⟨es, heq, hes⟩ :=
          ih (events ++ [.sent c (Codec.frameBytes f) false, .closeRequested c])
        refine ⟨_, ?_, .cons (.refused hfits) hes⟩
        dsimp only
        rw [heq, List.append_assoc]

theorem broadcast_of_unfit {f : Frame} (h : ¬Codec.Fits f) (connections : List ConnectionPtr) :
  Broadcast f connections []
  := by
  induction connections with
  | nil => exact .nil
  | cons connection connections ih =>
    cases connection with
    | none => exact .null ih
    | some c => exact .cons (.unfit h) ih

theorem broadcastFrame_spec (answers : Answers) (events : List Event)
    (connections : List ConnectionPtr) {type : MessageType} (htype : type ≠ .stateSnapshot)
    (payload : Bytes) :
  ∃ es, (broadcastFrame answers events connections type payload).2 = events ++ es
    ∧ Broadcast ⟨type.toU16, payload⟩ connections es
  := by
  rw [broadcastFrame]
  cases hframe : Codec.encode type.toU16 payload with
  | none =>
    use []
    rw [List.append_nil]
    use rfl
    apply broadcast_of_unfit
    intro hfits
    rw [Codec.encode_eq_some_iff.mpr ⟨hfits, rfl⟩] at hframe
    cases hframe
  | some frame =>
    obtain ⟨hfits, rfl⟩ := Codec.encode_eq_some_iff.mp hframe
    have hsnapshot : (type == .stateSnapshot) = false := by simpa using htype
    dsimp only
    rw [hsnapshot]
    apply broadcastLoop_spec answers hfits

theorem snapshotLoop_spec (answers : Answers) (f : Frame) (events : List Event)
    (connections : List ConnectionPtr) :
  ∃ es, (broadcastLoop answers true (Codec.frameBytes f) events connections).2 = events ++ es
    ∧ SnapshotCast f connections es
  := by
  induction connections generalizing events with
  | nil => exact ⟨[], (List.append_nil events).symm, .nil⟩
  | cons connection connections ih =>
    cases connection with
    | none =>
      obtain ⟨es, heq, hes⟩ := ih events
      exact ⟨es, heq, .null hes⟩
    | some c =>
      rw [broadcastLoop, if_pos rfl]
      split
      · obtain ⟨es, heq, hes⟩ := ih (events ++ [.skipped c])
        refine ⟨_, ?_, .skipped hes⟩
        rw [heq, List.append_assoc]
        rfl
      · obtain ⟨es, heq, hes⟩ := ih (events ++ [.sent c (Codec.frameBytes f)
          (answers.send events c (Codec.frameBytes f))])
        refine ⟨_, ?_, .sent (answers.send events c (Codec.frameBytes f)) hes⟩
        rw [heq, List.append_assoc]
        rfl

theorem sendSnapshots_spec (answers : Answers) (results : List RoomManager.TickResult)
    (events : List Event) :
  ∃ es, sendSnapshots answers events results = events ++ es ∧ Snapshots results es
  := by
  induction results generalizing events with
  | nil => exact ⟨[], (List.append_nil events).symm, .nil⟩
  | cons result results ih =>
    rw [sendSnapshots]
    split
    · obtain ⟨es, heq, hes⟩ := ih events
      exact ⟨es, heq, .pass hes⟩
    split
    · obtain ⟨es, heq, hes⟩ := ih events
      exact ⟨es, heq, .pass hes⟩
    next payload hpayload =>
    rw [broadcastFrame]
    cases hframe : Codec.encode MessageType.stateSnapshot.toU16 payload with
    | none =>
      obtain ⟨es, heq, hes⟩ := ih events
      exact ⟨es, heq, .pass hes⟩
    | some frame =>
      obtain ⟨hfits, rfl⟩ := Codec.encode_eq_some_iff.mp hframe
      obtain ⟨es, hcast, hes⟩ := snapshotLoop_spec answers
        ⟨MessageType.stateSnapshot.toU16, payload⟩ events result.notifyConnections
      obtain ⟨es', heq, hes'⟩ := ih (events ++ es)
      dsimp only
      rw [show (MessageType.stateSnapshot == .stateSnapshot) = true from rfl, hcast]
      refine ⟨es ++ es', ?_, .cons hpayload hfits hes hes'⟩
      rw [heq, List.append_assoc]

/-! ### Transactions -/

/-- One change of the service in the rooms, the sessions and the bindings, with the events
that announce it; `name` is the name a player asks for, and `fresh` a generated token. -/
inductive Transaction (name fresh : Bytes) (service : RoomService) : List Event → RoomService → Prop
  | quiet {es} (hes : Quiet es) : Transaction name fresh service es service
  | skipId {r room es} (hroom : service.roomManager.rooms.lookup r = some room)
      (hnext : room.nextPlayerId ≠ 0) (hes : Quiet es) :
      Transaction name fresh service es
        { service with roomManager := service.roomManager.setRoom r room.skipId }
  | submit {r room es} (hroom : service.roomManager.rooms.lookup r = some room)
      (pendingCommands : List Gamecommand) (hes : Quiet es) :
      Transaction name fresh service es
        { service with
          roomManager := service.roomManager.setRoom r { room with pendingCommands } }
  | tick {es} (hes : Quiet es) :
      Transaction name fresh service es
        { service with roomManager := service.roomManager.tickRooms.2 }
  | enrol {r room room' c response es es'}
      (hroom : service.roomManager.rooms.lookup r = some room)
      (hname : Protocol.NameFits name) (hwaiting : room.stateMachine.state = .waiting)
      (hsize : room.members.size < room.capacity.toNat) (hnext : room.nextPlayerId ≠ 0)
      (hroom' : room' = room.enrol name (some c)
        ∨ ((room.enrol name (some c)).start true).1 = .success
          ∧ room' = (room.enrol name (some c)).started)
      (hc : c ∉ service.sessionManager.bindings) (htoken : fresh ≠ [])
      (hnew : fresh ∉ service.sessionManager.sessions)
      (hresponse : Protocol.encodeJoinOk r room.nextPlayerId fresh
        (room.members.values.map Room.Member.info) = some response)
      (hes : SentTo c ⟨MessageType.joinOk.toU16, response⟩ es)
      (hes' : Broadcast ⟨MessageType.playerJoined.toU16, Protocol.appendU32 r
          ++ Protocol.appendMember ⟨room.nextPlayerId, name⟩⟩
        ((room.enrol name (some c)).connections room.nextPlayerId) es') :
      Transaction name fresh service (es ++ es')
        ⟨service.roomManager.setRoom r room', { service.sessionManager with
          sessions := service.sessionManager.sessions.insert fresh
            (.newOnline r room.nextPlayerId (some c))
          bindings := service.sessionManager.bindings.insert c fresh }⟩
  | bind {token session room member c response es}
      (hsession : service.sessionManager.sessions.lookup token = some session)
      (hoffline : session.state = .offline) (hc : c ∉ service.sessionManager.bindings)
      (hroom : service.roomManager.rooms.lookup session.roomId = some room)
      (hmember : room.members.lookup session.playerId = some member)
      (hresponse : Protocol.encodeResumeOk session.roomId session.playerId
        room.stateMachine.state room.tickId (room.seat member (some c)).memberSnapshot
        room.gameState.snapshot = some response)
      (hes : SentTo c ⟨MessageType.resumeOk.toU16, response⟩ es) :
      Transaction name fresh service es
        ⟨service.roomManager.setRoom session.roomId (room.seat member (some c)),
          { service.sessionManager with
            sessions := service.sessionManager.sessions.assign token
              { session with connection := some c, state := .online }
            bindings := service.sessionManager.bindings.insert c token }⟩
  | unbind {token session room member c}
      (hbinding : service.sessionManager.bindings.lookup c = some token)
      (hsession : service.sessionManager.sessions.lookup token = some session)
      (hroom : service.roomManager.rooms.lookup session.roomId = some room)
      (hmember : room.members.lookup session.playerId = some member) (deadline : Int) :
      Transaction name fresh service []
        ⟨service.roomManager.setRoom session.roomId (room.seat member none),
          { service.sessionManager with
            sessions := service.sessionManager.sessions.assign token
              { session with
                connection := none
                offlineDeadline := deadline
                state := .offline }
            bindings := service.sessionManager.bindings.erase c }⟩
  | remove {token session room bindings es es'}
      (hsession : service.sessionManager.sessions.lookup token = some session)
      (hroom : service.roomManager.rooms.lookup session.roomId = some room)
      (hbindings : ∀ c t, bindings.lookup c = some t
        ↔ t ≠ token ∧ service.sessionManager.bindings.lookup c = some t)
      (hes : Quiet es)
      (hes' : Broadcast ⟨MessageType.playerLeft.toU16, Protocol.appendU32 session.roomId
          ++ Protocol.appendU64 session.playerId⟩
        ((room.dismiss session.playerId).connections 0) es') :
      Transaction name fresh service (es ++ es')
        ⟨service.roomManager.setRoom session.roomId (room.dismiss session.playerId),
          { service.sessionManager with
            sessions := service.sessionManager.sessions.erase token, bindings }⟩

/-- Transactions one after the other, of which only the last may change the bindings. -/
inductive Transactions (name fresh : Bytes) : RoomService → List Event → RoomService → Prop
  | nil {service} : Transactions name fresh service [] service
  | single {service service' es} (h : Transaction name fresh service es service') :
      Transactions name fresh service es service'
  | cons {service service' service'' es es'} (h : Transaction name fresh service es service')
      (hbindings : service'.sessionManager.bindings = service.sessionManager.bindings)
      (hs : Transactions name fresh service' es' service'') :
      Transactions name fresh service (es ++ es') service''

variable {service service' : RoomService} {L : Ledger} {name fresh : Bytes} {es : List Event}

/-- The room after a transaction that enrols a member. -/
theorem enrolled_cases {room room' : Room} (h : room.Valid)
    (hname : Protocol.NameFits name) (hwaiting : room.stateMachine.state = .waiting)
    (hsize : room.members.size < room.capacity.toNat) (hnext : room.nextPlayerId ≠ 0)
    {c : ConnId}
    (hroom' : room' = room.enrol name (some c)
      ∨ ((room.enrol name (some c)).start true).1 = .success
        ∧ room' = (room.enrol name (some c)).started) :
  room'.Valid ∧ room'.roomId = room.roomId
    ∧ room'.members = (room.enrol name (some c)).members
  := by
  have henrol := h.enrol ⟨hname, hwaiting, hsize, hnext⟩ (some c)
  obtain rfl | ⟨hstart, rfl⟩ := hroom'
  · use henrol, rfl
  · refine ⟨henrol.started hstart, ?_, Room.started_members _⟩
    rw [(Room.start_spec henrol hstart).2.2.1]
    rfl

/-- The members of a room with a new one. -/
theorem lookup_enrol (room : Room) (c : ConnId) (p : UInt64) :
  (room.enrol name (some c)).members.lookup p
    = if p = room.nextPlayerId then some ⟨room.nextPlayerId, name, some c⟩
      else room.members.lookup p
  := AList.lookup_insert_eq_ite room.members p room.nextPlayerId _

/-- A room is replaced by one with the same members. -/
theorem Represents.setRoom (hL : service.Represents L) {r : UInt32} {room room' : Room}
    (hroom : service.roomManager.rooms.lookup r = some room) (hvalid : room'.Valid)
    (hid : room'.roomId = room.roomId) (hmembers : room'.members = room.members) :
  Represents { service with roomManager := service.roomManager.setRoom r room' } L
  := by
  apply hL.of_same_members
  · apply hL.valid.setRoom hroom _ hvalid
    rw [hid, hL.valid.key hroom]
  · intro r' p
    rw [RoomManager.member_setRoom hroom]
    split
    · next hr => rw [hr, RoomManager.member_eq hroom, hmembers]
    · rfl

/-- A free connection takes the place of an offline session. -/
theorem Represents.bind (hL : service.Represents L) {token : Bytes} {session : Session}
    {room : Room} {member : Room.Member} {c : ConnId}
    (hsession : service.sessionManager.sessions.lookup token = some session)
    (hoffline : session.state = .offline) (hc : c ∉ service.sessionManager.bindings)
    (hroom : service.roomManager.rooms.lookup session.roomId = some room)
    (hmember : room.members.lookup session.playerId = some member) :
  ∃ L', L.Step L' ∧ Represents
    ⟨service.roomManager.setRoom session.roomId (room.seat member (some c)),
      { service.sessionManager with
        sessions := service.sessionManager.sessions.assign token
          { session with connection := some c, state := .online }
        bindings := service.sessionManager.bindings.insert c token }⟩ L'
  := by
  have hclaim := hL.claim_of_session hsession
  have hconn : ∀ x, some c = some x → L.ConnFree x := by
    rintro x ⟨⟩
    apply hL.connFree_of_notMem hc
  rw [hL.offline_connection hsession hoffline] at hclaim
  refine ⟨_, .bind hclaim (L.seatFree_of_claim hclaim) hconn, ?_⟩
  apply hL.reseat { session with connection := some c, state := .online }
    hsession hroom hmember rfl (by simp [Session.Consistent]) hconn
  intro c' t'
  rw [lookup_insert_bound hc (hL.binding_ne (by simp [hclaim]))]

/-- The session of a connection goes offline. -/
theorem Represents.unbind (hL : service.Represents L) {token : Bytes} {session : Session}
    {room : Room} {member : Room.Member} {c : ConnId}
    (hbinding : service.sessionManager.bindings.lookup c = some token)
    (hsession : service.sessionManager.sessions.lookup token = some session)
    (hroom : service.roomManager.rooms.lookup session.roomId = some room)
    (hmember : room.members.lookup session.playerId = some member) (deadline : Int) :
  ∃ L', L.Step L' ∧ Represents
    ⟨service.roomManager.setRoom session.roomId (room.seat member none),
      { service.sessionManager with
        sessions := service.sessionManager.sessions.assign token
          { session with connection := none, offlineDeadline := deadline, state := .offline }
        bindings := service.sessionManager.bindings.erase c }⟩ L'
  := by
  obtain ⟨session', hsession', hconn', -⟩ := hL.session_of_binding hbinding
  rw [hsession] at hsession'
  cases hsession'
  have hclaim := hL.claim_of_session hsession
  rw [hconn'] at hclaim
  have hconn : ∀ x, none = some x → L.ConnFree x := by
    rintro x ⟨⟩
  refine ⟨_, .release hclaim (L.seatFree_of_claim hclaim) hconn, ?_⟩
  apply hL.reseat
    { session with connection := none, offlineDeadline := deadline, state := .offline }
    hsession hroom hmember rfl (by simp [Session.Consistent]) hconn
  intro c' t'
  rw [lookup_erase_bound hbinding fun _ => hL.eq_of_binding hbinding]

/-- A transaction keeps the service in step with claims, and changes these by a step. -/
theorem Transaction.represents (h : Transaction name fresh service es service')
    (hL : service.Represents L) :
  ∃ L', L.Step L' ∧ service'.Represents L'
  := by
  cases h with
  | quiet => exact ⟨L, .refl, hL⟩
  | skipId hroom hnext =>
    use L, .refl
    apply hL.setRoom hroom ((hL.valid.valid hroom).skipId hnext) (Room.roomId_skipId _) rfl
  | submit hroom pendingCommands =>
    use L, .refl
    apply hL.setRoom hroom ((hL.valid.valid hroom).pending pendingCommands) rfl rfl
  | tick =>
    use L, .refl
    apply hL.of_same_members hL.valid.tickRooms
    intro r p
    rw [RoomManager.member_tickRooms]
  | enrol hroom hname hwaiting hsize hnext hroom' hc _ hnew =>
    have hvalid := hL.valid.valid hroom
    obtain ⟨hvalid', hid, hmembers⟩ := enrolled_cases hvalid hname hwaiting hsize hnext hroom'
    apply hL.enrol hroom hvalid' hid (hvalid.next_notMem hnext) _ hc hnew
    · exact name
    · intro p
      rw [hmembers, lookup_enrol]
  | bind hsession hoffline hc hroom hmember =>
    apply hL.bind hsession hoffline hc hroom hmember
  | unbind hbinding hsession hroom hmember deadline =>
    apply hL.unbind hbinding hsession hroom hmember deadline
  | remove hsession hroom hbindings =>
    exact ⟨_, .drop (hL.claim_of_session hsession), hL.remove hsession hroom hbindings⟩

/-- Transactions keep the service in step with claims. -/
theorem Transactions.represents (h : Transactions name fresh service es service')
    (hL : service.Represents L) :
  ∃ L', service'.Represents L'
  := by
  induction h generalizing L with
  | nil => exact ⟨L, hL⟩
  | single h =>
    obtain ⟨L', -, hL'⟩ := h.represents hL
    exact ⟨L', hL'⟩
  | cons h _ _ ih =>
    obtain ⟨L', -, hL'⟩ := h.represents hL
    apply ih hL'

end RoomService

end RoomServer
