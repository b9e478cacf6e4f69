import RoomServer.Service.Transactions

/-!
# What becomes of a task

Each handler comes to one of a few ends.  Its outcome lists them, each with the service it
leaves, the events on the connections and what in the request and in the service brings it
about.  One lemma for each handler follows its exits in the order of the code and sorts them
into outcomes; everything else about a task of a coherent service is read off its outcome.
-/

namespace RoomServer

/-- The requests that are answered by an error when they are denied. -/
def requestTypes : List MessageType := [.join, .leave, .chat, .move, .attack, .resume]

/-- The events of telling a connection that its request is denied. -/
def Denied (c : ConnId) (requestType : MessageType) (es : List Event) : Prop :=
  ∃ errorCode : ErrorCode, SentTo c ⟨MessageType.error.toU16,
    Protocol.appendU16 requestType.toU16 ++ Protocol.appendU16 errorCode.toU16⟩ es

theorem Denied.quiet {c : ConnId} {requestType : MessageType} {es : List Event}
    (h : Denied c requestType es) :
  Quiet es
  := by
  obtain ⟨errorCode, hes⟩ := h
  apply hes.quiet (by decide)

theorem Denied.ne_nil {c : ConnId} {requestType : MessageType} {es : List Event}
    (h : Denied c requestType es) :
  es ≠ []
  := by
  obtain ⟨errorCode, hes⟩ := h
  cases hes with
  | unfit hunfit =>
    apply absurd _ hunfit
    rw [Codec.Fits, List.length_append]
    simp
  | accepted => simp
  | refused => simp

namespace RoomService

theorem sendError_denied (answers : Answers) (c : ConnId) {requestType : MessageType}
    (h : requestType ∈ requestTypes) (errorCode : ErrorCode) :
  Denied c requestType (sendError answers [] (some c) requestType errorCode).2
  := by
  have hencode : Protocol.encodeError requestType errorCode
      = some (Protocol.appendU16 requestType.toU16 ++ Protocol.appendU16 errorCode.toU16) := by
    revert h
    cases requestType <;> first | exact fun _ => rfl | exact fun h => absurd h (by decide)
  obtain ⟨es, hsend, hes⟩ := sendFrame_spec answers [] c .error
    (Protocol.appendU16 requestType.toU16 ++ Protocol.appendU16 errorCode.toU16)
  use errorCode
  rw [sendError, hencode]
  dsimp only
  rw [hsend]
  exact hes

theorem report_denied (answers : Answers) (c : ConnId) {requestType : MessageType}
    (h : requestType ∈ requestTypes) {errorCode : Option ErrorCode} (hcode : errorCode ≠ none) :
  Denied c requestType (report answers (some c) requestType errorCode)
  := by
  obtain ⟨errorCode, rfl⟩ := Option.ne_none_iff_exists'.mp hcode
  apply sendError_denied answers c h errorCode

theorem stateToErrorCode_ne_none {state : RoomManager.States} (hsuccess : state ≠ .success)
    (hconn : state ≠ .invalidConnection) (hinternal : state ≠ .internalError) :
  stateToErrorCode state ≠ none
  := by
  cases state <;> simp_all [stateToErrorCode]

variable {service : RoomService} {L : Ledger} {c : ConnId}

/-! ### Joining -/

section Join

variable {r : UInt32} {room : Room} {name token payload : Bytes}

/-- A session can be opened under the token for a new member of the room, and the member can be
told of it and can play. -/
structure Welcomes (service : RoomService) (r : UInt32) (room : Room) (token : Bytes) : Prop where
  token_ne_nil : token ≠ []
  token_new : token ∉ service.sessionManager.sessions
  response : ∃ response, Protocol.encodeJoinOk r room.nextPlayerId token
    (room.members.values.map Room.Member.info) = some response
  plays : room.members.size + 1 = room.capacity.toNat →
    room.capacity.toNat ≤ Gamestate.maxPlayers

/-- The room with a new member: it waits if it has places left, and is started otherwise. -/
inductive Filled (room : Room) (name : Bytes) (c : ConnId) : Room → Prop
  | waits (h : room.members.size + 1 < room.capacity.toNat) :
      Filled room name c (room.enrol name (some c))
  | starts (h : room.members.size + 1 = room.capacity.toNat)
      (hstart : ((room.enrol name (some c)).start true).1 = .success) :
      Filled room name c (room.enrol name (some c)).started

/-- What becomes of a request to join on the connection `c`: it is denied, the player was
enrolled and is taken out again without a word, or the join is committed. -/
inductive JoinOutcome (service : RoomService) (c : ConnId) (payload token : Bytes) :
    RoomService → List Event → Prop
  | denied {es}
      (hnot : ∀ request room, Protocol.decodeJoinRequest payload = some request →
        c ∉ service.sessionManager.bindings →
        service.roomManager.rooms.lookup request.roomId = some room →
        ¬room.Admits request.playerName)
      (hes : Denied c .join es) : JoinOutcome service c payload token service es
  | undone {request room} (hrequest : Protocol.decodeJoinRequest payload = some request)
      (hc : c ∉ service.sessionManager.bindings)
      (hroom : service.roomManager.rooms.lookup request.roomId = some room)
      (hadmits : room.Admits request.playerName)
      (hnot : ¬service.Welcomes request.roomId room token) :
      JoinOutcome service c payload token
        { service with roomManager := service.roomManager.setRoom request.roomId room.skipId } []
  | committed {request room room' response es es'}
      (hrequest : Protocol.decodeJoinRequest payload = some request)
      (hc : c ∉ service.sessionManager.bindings)
      (hroom : service.roomManager.rooms.lookup request.roomId = some room)
      (hadmits : room.Admits request.playerName)
      (hwelcomes : service.Welcomes request.roomId room token)
      (hroom' : Filled room request.playerName c room')
      (hresponse : Protocol.encodeJoinOk request.roomId room.nextPlayerId token
        (room.members.values.map Room.Member.info) = some response)
      (hes : SentTo c ⟨MessageType.joinOk.toU16, response⟩ es)
      (hes' : Broadcast ⟨MessageType.playerJoined.toU16, Protocol.appendU32 request.roomId
          ++ Protocol.appendMember ⟨room.nextPlayerId, request.playerName⟩⟩
        ((room.enrol request.playerName (some c)).connections room.nextPlayerId) es') :
      JoinOutcome service c payload token
        ⟨service.roomManager.setRoom request.roomId room', { service.sessionManager with
          sessions := service.sessionManager.sessions.insert token
            (.newOnline request.roomId room.nextPlayerId (some c))
          bindings := service.sessionManager.bindings.insert c token }⟩ (es ++ es')

theorem valid_setRoom_enrol (hL : service.Represents L)
    (hroom : service.roomManager.rooms.lookup r = some room) (hadmits : room.Admits name)
    (c : ConnId) :
  (service.roomManager.setRoom r (room.enrol name (some c))).Valid
  := by
  have hid : (room.enrol name (some c)).roomId = r := by
    rw [Room.roomId_enrol, hL.valid.key hroom]
  apply hL.valid.setRoom hroom hid ((hL.valid.valid hroom).enrol hadmits (some c))

theorem lookup_setRoom_enrol (hroom : service.roomManager.rooms.lookup r = some room)
    (name : Bytes) (c : ConnId) :
  (service.roomManager.setRoom r (room.enrol name (some c))).rooms.lookup r
    = some (room.enrol name (some c))
  := by
  rw [RoomManager.lookup_setRoom hroom, if_pos rfl]

/-- A player that was just enrolled leaves again, and only its id is used up. -/
theorem leave_enrolled (hL : service.Represents L)
    (hroom : service.roomManager.rooms.lookup r = some room) (hadmits : room.Admits name) :
  (((service.roomManager.setRoom r (room.enrol name (some c))).leave r
      room.nextPlayerId).1.state = .success)
    ∧ ((service.roomManager.setRoom r (room.enrol name (some c))).leave r room.nextPlayerId).2
      = service.roomManager.setRoom r room.skipId
  := by
  have hvalid := hL.valid.valid hroom
  have hmanager := valid_setRoom_enrol hL hroom hadmits c
  have hlookup := lookup_setRoom_enrol hroom name c
  have hmem : room.nextPlayerId ∈ (room.enrol name (some c)).members := by
    apply AList.mem_iff_lookup.mpr
    rw [lookup_enrol, if_pos rfl]
    exact ⟨_, rfl⟩
  rw [RoomManager.leave_of_member hmanager hlookup hmem,
    Room.dismiss_enrol hvalid hadmits.waiting hadmits.next_ne_zero, RoomManager.setRoom_setRoom]
  use rfl

/-- Taking back a join that was just made only uses up an id. -/
theorem rollbackJoin_enrolled (hL : service.Represents L)
    (hroom : service.roomManager.rooms.lookup r = some room) (hadmits : room.Admits name)
    (hc : c ∉ service.sessionManager.bindings)
    (hnew : token ∉ service.sessionManager.sessions) :
  rollbackJoin ⟨service.roomManager.setRoom r (room.enrol name (some c)),
      { service.sessionManager with
        sessions := service.sessionManager.sessions.insert token
          (.newOnline r room.nextPlayerId (some c))
        bindings := service.sessionManager.bindings.insert c token }⟩
    (some c) r room.nextPlayerId
    = { service with roomManager := service.roomManager.setRoom r room.skipId }
  := by
  obtain ⟨hstate, hmanager⟩ := leave_enrolled (c := c) hL hroom hadmits
  simp only [rollbackJoin, hstate, hmanager, if_true, SessionManager.eraseByConnection,
    AList.lookup_insert, AList.erase_insert_of_notMem hc, AList.erase_insert_of_notMem hnew]

/-- The player was enrolled and a session was opened: the room waits or starts, or the join is
taken back. -/
theorem startIfFull_enrolled (hL : service.Represents L)
    (hroom : service.roomManager.rooms.lookup r = some room) (hadmits : room.Admits name) :
  (∃ room', Filled room name c room' ∧ (room.members.size + 1 = room.capacity.toNat →
        room.capacity.toNat ≤ Gamestate.maxPlayers)
      ∧ (service.roomManager.setRoom r (room.enrol name (some c))).startIfFull r
        = (.success, service.roomManager.setRoom r room'))
    ∨ room.members.size + 1 = room.capacity.toNat ∧ Gamestate.maxPlayers < room.capacity.toNat
      ∧ (service.roomManager.setRoom r (room.enrol name (some c))).startIfFull r
        = (.internalError, service.roomManager.setRoom r (room.enrol name (some c)))
  := by
  have hvalid := hL.valid.valid hroom
  have hmanager := valid_setRoom_enrol hL hroom hadmits c
  have hlookup := lookup_setRoom_enrol hroom name c
  have hsize : (room.enrol name (some c)).members.size = room.members.size + 1 :=
    AList.size_insert_of_notMem (hvalid.next_notMem hadmits.next_ne_zero) _
  have hcapacity : (room.enrol name (some c)).capacity = room.capacity := rfl
  have hcases := RoomManager.startIfFull_cases hmanager hlookup hadmits.waiting (by omega)
  rw [hsize, hcapacity] at hcases
  obtain ⟨hlt, hwait⟩ | ⟨hfull, ⟨hmax, hsuccess, hstart⟩ | ⟨hmax, hfail⟩⟩ := hcases
  · exact .inl ⟨_, .waits hlt, by omega, hwait⟩
  · rw [RoomManager.setRoom_setRoom] at hstart
    exact .inl ⟨_, .starts hfull hsuccess, fun _ => hmax, hstart⟩
  · exact .inr ⟨hfull, hmax, hfail⟩

theorem handleJoin_outcome (hL : service.Represents L) (answers : Answers) (token : Bytes)
    (c : ConnId) (payload : Bytes) :
  JoinOutcome service c payload token (service.handleJoin answers token (some c) payload).1
    (service.handleJoin answers token (some c) payload).2
  := by
  rw [handleJoin]
  cases hrequest : Protocol.decodeJoinRequest payload with
  | none => exact .denied (by simp [hrequest]) (sendError_denied answers c (by decide) _)
  | some request =>
  dsimp only
  cases hbinding : service.sessionManager.bindings.lookup c with
  | some token' =>
    obtain ⟨session, hsession, -, -⟩ := hL.session_of_binding hbinding
    rw [SessionManager.lookup_of_bound hbinding hsession]
    apply JoinOutcome.denied _ (sendError_denied answers c (by decide) _)
    intro _ _ _ hc
    exact absurd (AList.mem_iff_lookup.mpr ⟨token', hbinding⟩) hc
  | none =>
  have hc := AList.lookup_eq_none.mp hbinding
  rw [SessionManager.lookup_of_unbound hbinding]
  dsimp only
  obtain ⟨hstate, hsame, hrefused⟩ | ⟨room, hroom, -, hadmits, hjoin⟩ :=
    RoomManager.join_cases hL.valid (some c) request.roomId request.playerName
  · -- The room refuses the player.
    obtain ⟨hnot, hconn, hinternal⟩ := hrefused (by simp)
    rw [if_pos hstate, hsame]
    apply JoinOutcome.denied _ (report_denied answers c (by decide)
      (stateToErrorCode_ne_none hstate hconn hinternal))
    rintro request' room hrequest' - hroom
    rw [hrequest, Option.some.injEq] at hrequest'
    subst hrequest'
    apply hnot room hroom
  rw [hjoin]
  simp only [ne_eq, not_true_eq_false, if_false]
  obtain ⟨hstate, hsame⟩ | ⟨c', hcc, -, htoken, hnew, hcreate⟩ :=
    service.sessionManager.create_cases token (some c) request.roomId room.nextPlayerId
  · -- There is no session to be had.
    obtain ⟨-, hmanager⟩ := leave_enrolled (c := c) hL hroom hadmits
    simp only [hstate, not_false_eq_true, if_true, hsame, hmanager]
    apply JoinOutcome.undone hrequest hc hroom hadmits
    intro hwelcomes
    apply hstate
    simp [SessionManager.create, hc, hwelcomes.token_ne_nil, hwelcomes.token_new]
  cases hcc
  have hrollback := rollbackJoin_enrolled hL hroom hadmits hc hnew
  simp only [hcreate, not_true_eq_false, if_false,
    Protocol.encodePlayerJoined_eq hadmits.name_fits]
  cases hresponse : Protocol.encodeJoinOk request.roomId room.nextPlayerId token
      (room.members.values.map Room.Member.info) with
  | none =>
    -- The response cannot be written.
    simp only [hrollback]
    apply JoinOutcome.undone hrequest hc hroom hadmits
    intro hwelcomes
    obtain ⟨response, hsome⟩ := hwelcomes.response
    rw [hresponse] at hsome
    cases hsome
  | some response =>
  dsimp only
  obtain ⟨room', hroom', hplays, hstart⟩ | ⟨hfull, hmax, hfail⟩ :=
    startIfFull_enrolled (c := c) hL hroom hadmits
  · obtain ⟨es, hsend, hes⟩ := sendFrame_spec answers [] c .joinOk response
    rw [List.nil_append] at hsend
    obtain ⟨es', hbroadcast, hes'⟩ := broadcastFrame_spec answers es
      ((room.enrol request.playerName (some c)).connections room.nextPlayerId)
      (show MessageType.playerJoined ≠ .stateSnapshot by decide)
      (Protocol.appendU32 request.roomId
        ++ Protocol.appendMember ⟨room.nextPlayerId, request.playerName⟩)
    simp only [hstart, not_true_eq_false, if_false, hsend, hbroadcast]
    exact .committed hrequest hc hroom hadmits ⟨htoken, hnew, ⟨response, hresponse⟩, hplays⟩
      hroom' hresponse hes hes'
  · -- The room is too large for a game.
    simp only [hfail, reduceCtorEq, not_false_eq_true, if_true, hrollback]
    apply JoinOutcome.undone hrequest hc hroom hadmits
    intro hwelcomes
    exact absurd (hwelcomes.plays hfull) (Nat.not_le.mpr hmax)

end Join

/-! ### Resuming -/

section Resume

variable {payload : Bytes} {now : Int}

/-- What becomes of a request to resume on the connection `c`: it is denied, it is ignored
because the connection is bound, the session was bound and is taken back without a word, or the
resume is committed. -/
inductive ResumeOutcome (service : RoomService) (c : ConnId) (payload : Bytes) (now : Int) :
    RoomService → List Event → Prop
  | denied {es}
      (hnot : ∀ request, Protocol.decodeResumeRequest payload = some request →
        c ∉ service.sessionManager.bindings ∧ ∀ session,
          service.sessionManager.sessions.lookup request.token = some session →
          ¬SessionManager.Waits session now)
      (hes : Denied c .resume es) : ResumeOutcome service c payload now service es
  | ignored {request} (hrequest : Protocol.decodeResumeRequest payload = some request)
      (hc : c ∈ service.sessionManager.bindings) : ResumeOutcome service c payload now service []
  | undone {request session room member}
      (hrequest : Protocol.decodeResumeRequest payload = some request)
      (hc : c ∉ service.sessionManager.bindings)
      (hsession : service.sessionManager.sessions.lookup request.token = some session)
      (hwaits : SessionManager.Waits session now)
      (hroom : service.roomManager.rooms.lookup session.roomId = some room)
      (hmember : room.members.lookup session.playerId = some member)
      (hresponse : Protocol.encodeResumeOk session.roomId session.playerId
        room.stateMachine.state room.tickId (room.seat member (some c)).memberSnapshot
        room.gameState.snapshot = none) : ResumeOutcome service c payload now service []
  | committed {request session room member response es}
      (hrequest : Protocol.decodeResumeRequest payload = some request)
      (hc : c ∉ service.sessionManager.bindings)
      (hsession : service.sessionManager.sessions.lookup request.token = some session)
      (hwaits : SessionManager.Waits session now)
      (hroom : service.roomManager.rooms.lookup session.roomId = some room)
      (hmember : room.members.lookup session.playerId = some member)
      (hresponse : Protocol.encodeResumeOk session.roomId session.playerId
        room.stateMachine.state room.tickId (room.seat member (some c)).memberSnapshot
        room.gameState.snapshot = some response)
      (hes : SentTo c ⟨MessageType.resumeOk.toU16, response⟩ es) :
      ResumeOutcome service c payload now
        ⟨service.roomManager.setRoom session.roomId (room.seat member (some c)),
          { service.sessionManager with
            sessions := service.sessionManager.sessions.assign request.token
              { session with connection := some c, state := .online }
            bindings := service.sessionManager.bindings.insert c request.token }⟩ es

/-- The room of a waiting session has its member, without a connection. -/
theorem member_of_waits (hL : service.Represents L) {token : Bytes} {session : Session}
    (hsession : service.sessionManager.sessions.lookup token = some session)
    (hwaits : SessionManager.Waits session now) :
  session.connection = none
    ∧ ∃ room member, service.roomManager.rooms.lookup session.roomId = some room
      ∧ room.members.lookup session.playerId = some member ∧ member.connection = none
  := by
  have hconn := hL.offline_connection hsession hwaits.1
  have hclaim := hL.claim_of_session hsession
  rw [hconn] at hclaim
  exact ⟨hconn, hL.member_of_claim hclaim⟩

/-- Taking the connection back from a member that was just seated undoes seating it. -/
theorem detachConnection_seated (hL : service.Represents L) {r : UInt32} {room : Room}
    (hroom : service.roomManager.rooms.lookup r = some room) {p : UInt64} {member : Room.Member}
    (hmember : room.members.lookup p = some member) (hoffline : member.connection = none) :
  ((service.roomManager.setRoom r (room.seat member (some c))).detachConnection r p (some c)).2
    = service.roomManager
  := by
  have hvalid := hL.valid.valid hroom
  have hid : (room.seat member (some c)).roomId = r := by
    rw [Room.roomId_seat, hL.valid.key hroom]
  have hlookup : (service.roomManager.setRoom r (room.seat member (some c))).rooms.lookup r
      = some (room.seat member (some c)) := by
    rw [RoomManager.lookup_setRoom hroom, if_pos rfl]
  have hmember' : (room.seat member (some c)).members.lookup p
      = some { member with connection := some c } := by
    rw [Room.lookup_seat hvalid hmember, if_pos rfl]
  rw [RoomManager.detachConnection_of_bound
    (hL.valid.setRoom hroom hid (hvalid.seat hmember (some c))) hlookup hmember' rfl]
  rw [RoomManager.setRoom_setRoom, Room.seat_seat hvalid hmember hoffline,
    RoomManager.setRoom_lookup hroom]

theorem handleResume_outcome (hL : service.Represents L) (answers : Answers) (now : Int)
    (c : ConnId) (payload : Bytes) :
  ResumeOutcome service c payload now (service.handleResume answers now (some c) payload).1
    (service.handleResume answers now (some c) payload).2
  := by
  rw [handleResume]
  cases hrequest : Protocol.decodeResumeRequest payload with
  | none => exact .denied (by simp [hrequest]) (sendError_denied answers c (by decide) _)
  | some request =>
  dsimp only
  obtain ⟨hc, hresume⟩ | ⟨hc, hnot, state, hstate, hresume⟩
      | ⟨session, hc, hsession, hwaits, hresume⟩ :=
    service.sessionManager.resume_cases c request.token now
  · rw [hresume]
    exact .ignored hrequest hc
  · rw [hresume]
    have hsuccess : state ≠ .success := by
      rintro rfl
      exact absurd hstate (by decide)
    have hcode : sessionStateToErrorCode state ≠ none := by
      revert hstate
      cases state <;> simp [sessionStateToErrorCode]
    simp only [ne_eq, hsuccess, not_false_eq_true, if_true]
    apply ResumeOutcome.denied _ (report_denied answers c (by decide) hcode)
    intro request' hrequest'
    rw [hrequest, Option.some.injEq] at hrequest'
    subst hrequest'
    exact ⟨hc, hnot⟩
  obtain ⟨hconn, room, member, hroom, hmember, hoffline⟩ := member_of_waits hL hsession hwaits
  rw [hresume]
  simp only [ne_eq, not_true_eq_false, if_false,
    RoomManager.bindConnection_of_offline hL.valid hroom hmember hoffline]
  cases hresponse : Protocol.encodeResumeOk session.roomId session.playerId
      room.stateMachine.state room.tickId (room.seat member (some c)).memberSnapshot
      room.gameState.snapshot with
  | none =>
    -- The response cannot be written, and everything is taken back.
    simp only [detachConnection_seated hL hroom hmember hoffline,
      SessionManager.rollbackResume_resume hc hsession hwaits.1 hconn]
    exact .undone hrequest hc hsession hwaits hroom hmember hresponse
  | some response =>
    obtain ⟨es, hsend, hes⟩ := sendFrame_spec answers [] c .resumeOk response
    rw [List.nil_append] at hsend
    dsimp only
    rw [hsend]
    exact .committed hrequest hc hsession hwaits hroom hmember hresponse hes

end Resume

/-! ### Other requests -/

section Requests

variable {payload : Bytes}

/-- A connection has a player, or its request is denied. -/
theorem lookupIdentity_cases (hL : service.Represents L) (answers : Answers) (c : ConnId)
    {requestType : MessageType} (h : requestType ∈ requestTypes) :
  (c ∉ service.sessionManager.bindings
      ∧ ∃ es, service.lookupIdentity answers (some c) requestType = (none, es)
        ∧ Denied c requestType es)
    ∨ ∃ token session room member, service.sessionManager.bindings.lookup c = some token
      ∧ service.sessionManager.sessions.lookup token = some session
      ∧ session.connection = some c
      ∧ service.roomManager.rooms.lookup session.roomId = some room
      ∧ room.members.lookup session.playerId = some member ∧ member.connection = some c
      ∧ service.lookupIdentity answers (some c) requestType
        = (some (session.roomId, session.playerId), [])
  := by
  rw [lookupIdentity]
  cases hbinding : service.sessionManager.bindings.lookup c with
  | none =>
    left
    rw [SessionManager.lookup_of_unbound hbinding]
    exact ⟨AList.lookup_eq_none.mp hbinding, _, rfl, sendError_denied answers c h _⟩
  | some token =>
    right
    obtain ⟨session, hsession, hconn, -⟩ := hL.session_of_binding hbinding
    have hclaim := hL.claim_of_session hsession
    rw [hconn] at hclaim
    obtain ⟨room, member, hroom, hmember, hmconn⟩ := hL.member_of_claim hclaim
    use token, session, room, member, rfl, hsession, hconn, hroom, hmember, hmconn
    rw [SessionManager.lookup_of_bound hbinding hsession]

/-- What becomes of a request to leave on the connection `c`. -/
inductive LeaveOutcome (service : RoomService) (c : ConnId) : RoomService → List Event → Prop
  | denied {es} (hes : Denied c .leave es) : LeaveOutcome service c service es
  | left {token session room es es'}
      (hbinding : service.sessionManager.bindings.lookup c = some token)
      (hsession : service.sessionManager.sessions.lookup token = some session)
      (hconn : session.connection = some c)
      (hroom : service.roomManager.rooms.lookup session.roomId = some room)
      (hes : SentTo c ⟨MessageType.leaveOk.toU16, Protocol.appendU32 session.roomId⟩ es)
      (hes' : Broadcast ⟨MessageType.playerLeft.toU16, Protocol.appendU32 session.roomId
          ++ Protocol.appendU64 session.playerId⟩
        ((room.dismiss session.playerId).connections 0) es') :
      LeaveOutcome service c
        ⟨service.roomManager.setRoom session.roomId (room.dismiss session.playerId),
          { service.sessionManager with
            sessions := service.sessionManager.sessions.erase token
            bindings := service.sessionManager.bindings.erase c }⟩ (es ++ es')

theorem handleLeave_outcome (hL : service.Represents L) (answers : Answers) (c : ConnId)
    (payload : Bytes) :
  LeaveOutcome service c (service.handleLeave answers (some c) payload).1
    (service.handleLeave answers (some c) payload).2
  := by
  rw [handleLeave]
  split
  · exact .denied (sendError_denied answers c (by decide) _)
  obtain ⟨-, es, hlookup, hes⟩
      | ⟨token, session, room, member, hbinding, hsession, hconn, hroom, hmember, -, hlookup⟩ :=
    lookupIdentity_cases hL answers c (show MessageType.leave ∈ requestTypes by decide)
  · rw [hlookup]
    exact .denied hes
  have hmem := AList.mem_iff_lookup.mpr ⟨member, hmember⟩
  have herase : service.sessionManager.eraseByConnection (some c)
      = (.success, { service.sessionManager with
        bindings := service.sessionManager.bindings.erase c
        sessions := service.sessionManager.sessions.erase token }) := by
    simp only [SessionManager.eraseByConnection, hbinding, hsession]
  obtain ⟨es, hsend, hes⟩ := sendFrame_spec answers [] c .leaveOk
    (Protocol.appendU32 session.roomId)
  rw [List.nil_append] at hsend
  obtain ⟨es', hbroadcast, hes'⟩ := broadcastFrame_spec answers es
    ((room.dismiss session.playerId).connections 0)
    (show MessageType.playerLeft ≠ .stateSnapshot by decide)
    (Protocol.appendU32 session.roomId ++ Protocol.appendU64 session.playerId)
  rw [hlookup]
  simp only [RoomManager.leave_of_member hL.valid hroom hmem, ne_eq, not_true_eq_false,
    if_false, herase, Protocol.encodeLeaveOk, Protocol.encodePlayerLeft, hsend, hbroadcast]
  exact .left hbinding hsession hconn hroom hes hes'

/-- The events of a request to chat on the connection `c`. -/
inductive ChatOutcome (service : RoomService) (c : ConnId) : List Event → Prop
  | denied {es} (hes : Denied c .chat es) : ChatOutcome service c es
  | said {token session room member message es}
      (hbinding : service.sessionManager.bindings.lookup c = some token)
      (hsession : service.sessionManager.sessions.lookup token = some session)
      (hroom : service.roomManager.rooms.lookup session.roomId = some room)
      (hmember : room.members.lookup session.playerId = some member)
      (hconn : member.connection = some c)
      (hmessage : message.length ≤ Protocol.maxChatMessageSize)
      (hes : Broadcast ⟨MessageType.chatEvent.toU16, Protocol.appendU32 session.roomId
          ++ Protocol.appendU64 session.playerId ++ Protocol.appendText message⟩
        (room.connections 0) es) : ChatOutcome service c es

theorem handleChat_outcome (hL : service.Represents L) (answers : Answers) (c : ConnId)
    (payload : Bytes) :
  (service.handleChat answers (some c) payload).1 = service
    ∧ ChatOutcome service c (service.handleChat answers (some c) payload).2
  := by
  rw [handleChat]
  split
  · exact ⟨rfl, .denied (sendError_denied answers c (by decide) _)⟩
  next request hrequest =>
  obtain ⟨-, es, hlookup, hes⟩
      | ⟨token, session, room, member, hbinding, hsession, -, hroom, hmember, hconn, hlookup⟩ :=
    lookupIdentity_cases hL answers c (show MessageType.chat ∈ requestTypes by decide)
  · rw [hlookup]
    exact ⟨rfl, .denied hes⟩
  rw [hlookup]
  dsimp only
  by_cases hmessage : request.message = [] ∨ request.message.length > Protocol.maxChatMessageSize
  · have hchat : service.roomManager.chat session.roomId session.playerId request.message
        = { state := .invalidMessage } := by
      rw [RoomManager.chat, if_pos hmessage]
    have hcode : stateToErrorCode .invalidMessage ≠ none := by simp [stateToErrorCode]
    have hes : Denied c .chat (report answers (some c) .chat (stateToErrorCode .invalidMessage)) :=
      report_denied answers c (by decide) hcode
    rw [hchat]
    exact ⟨rfl, .denied hes⟩
  have hmem := AList.mem_iff_lookup.mpr ⟨member, hmember⟩
  have hchat : service.roomManager.chat session.roomId session.playerId request.message
      = ⟨.success, session.roomId, session.playerId, room.connections 0⟩ := by
    rw [RoomManager.chat, if_neg hmessage, hroom]
    simp [Room.contains, hmem]
  have hencode : Protocol.encodeChatEvent session.roomId session.playerId request.message
      = some (Protocol.appendU32 session.roomId ++ Protocol.appendU64 session.playerId
        ++ Protocol.appendText request.message) := by
    rw [Protocol.encodeChatEvent, if_neg hmessage]
  obtain ⟨es, hbroadcast, hes⟩ := broadcastFrame_spec answers [] (room.connections 0)
    (show MessageType.chatEvent ≠ .stateSnapshot by decide)
    (Protocol.appendU32 session.roomId ++ Protocol.appendU64 session.playerId
      ++ Protocol.appendText request.message)
  rw [List.nil_append] at hbroadcast
  simp only [hchat, ne_eq, not_true_eq_false, if_false, hencode, hbroadcast, true_and]
  rw [not_or, Nat.not_lt] at hmessage
  exact .said hbinding hsession hroom hmember hconn hmessage.2 hes

/-- What becomes of a command on the connection `c`: it is denied, or it is collected. -/
inductive CommandOutcome (service : RoomService) (c : ConnId) (requestType : MessageType) :
    RoomService → List Event → Prop
  | denied {es} (hes : Denied c requestType es) : CommandOutcome service c requestType service es
  | collected {token session room}
      (hbinding : service.sessionManager.bindings.lookup c = some token)
      (hsession : service.sessionManager.sessions.lookup token = some session)
      (hroom : service.roomManager.rooms.lookup session.roomId = some room)
      (pendingCommands : List Gamecommand) :
      CommandOutcome service c requestType
        { service with
          roomManager :=
            service.roomManager.setRoom session.roomId { room with pendingCommands } } []

theorem handleCommand_outcome (hL : service.Represents L) (answers : Answers) (c : ConnId)
    {requestType : MessageType} (h : requestType ∈ requestTypes)
    {submit : RoomManager → UInt32 → UInt64 → RoomManager.CommandResult × RoomManager}
    (command : UInt64 → Gamecommand) (hplayer : ∀ p, (command p).playerId = p)
    (hsubmit : ∀ r p, submit service.roomManager r p
      = service.roomManager.command r p fun room => room.submit (command p)) :
  CommandOutcome service c requestType
    (service.handleCommand answers (some c) requestType submit).1
    (service.handleCommand answers (some c) requestType submit).2
  := by
  rw [handleCommand]
  obtain ⟨-, es, hlookup, hes⟩
      | ⟨token, session, room, member, hbinding, hsession, -, hroom, hmember, -, hlookup⟩ :=
    lookupIdentity_cases hL answers c h
  · rw [hlookup]
    exact .denied hes
  rw [hlookup]
  have hmem : (command session.playerId).playerId ∈ room.members := by
    rw [hplayer]
    apply AList.mem_iff_lookup.mpr ⟨member, hmember⟩
  have hcases := RoomManager.command_cases hroom hmem
  rw [hplayer, ← hsubmit] at hcases
  obtain ⟨state, hstate, heq⟩ | heq := hcases
  · have hsuccess : state ≠ .success := by
      rintro rfl
      exact absurd hstate (by decide)
    have hcode : stateToErrorCode state ≠ none := by
      revert hstate
      cases state <;> simp [stateToErrorCode]
    simp only [heq, ne_eq, hsuccess, not_false_eq_true, if_true]
    exact .denied (report_denied answers c h hcode)
  · simp only [heq, ne_eq, not_true_eq_false, if_false]
    exact .collected hbinding hsession hroom _

theorem handleMove_outcome (hL : service.Represents L) (answers : Answers) (c : ConnId)
    (payload : Bytes) :
  CommandOutcome service c .move (service.handleMove answers (some c) payload).1
    (service.handleMove answers (some c) payload).2
  := by
  rw [handleMove]
  split
  · exact .denied (sendError_denied answers c (by decide) _)
  next request _ =>
  apply handleCommand_outcome hL answers c (by decide)
    (fun p => .move p request.dx request.dy) (fun _ => rfl) fun _ _ => rfl

theorem handleAttack_outcome (hL : service.Represents L) (answers : Answers) (c : ConnId)
    (payload : Bytes) :
  CommandOutcome service c .attack (service.handleAttack answers (some c) payload).1
    (service.handleAttack answers (some c) payload).2
  := by
  rw [handleAttack]
  split
  · exact .denied (sendError_denied answers c (by decide) _)
  next request _ =>
  apply handleCommand_outcome hL answers c (by decide)
    (fun p => .attack p request.targetPlayerId) (fun _ => rfl) fun _ _ => rfl

end Requests

/-! ### Other tasks -/

section Tasks

/-- A connection that is closed is not bound, or its session and its member are released. -/
theorem handleConnectionClosed_cases (hL : service.Represents L) (c : ConnId) (now : Int) :
  service.sessionManager.bindings.lookup c = none
      ∧ service.handleConnectionClosed (some c) now = service
    ∨ ∃ token session room member,
      service.sessionManager.bindings.lookup c = some token
      ∧ service.sessionManager.sessions.lookup token = some session
      ∧ service.roomManager.rooms.lookup session.roomId = some room
      ∧ room.members.lookup session.playerId = some member
      ∧ service.handleConnectionClosed (some c) now
        = ⟨service.roomManager.setRoom session.roomId (room.seat member none),
          { service.sessionManager with
            sessions := service.sessionManager.sessions.assign token
              { session with
                connection := none
                offlineDeadline := now + service.sessionManager.reconnectTimeout
                state := .offline }
            bindings := service.sessionManager.bindings.erase c }⟩
  := by
  rw [handleConnectionClosed, if_neg (by simp)]
  cases hbinding : service.sessionManager.bindings.lookup c with
  | none =>
    left
    simp [SessionManager.lookup_of_unbound hbinding]
  | some token =>
    right
    obtain ⟨session, hsession, hconn, hstate⟩ := hL.session_of_binding hbinding
    have hclaim := hL.claim_of_session hsession
    rw [hconn] at hclaim
    obtain ⟨room, member, hroom, hmember, hmconn⟩ := hL.member_of_claim hclaim
    use token, session, room, member, rfl, hsession, hroom, hmember
    simp only [SessionManager.lookup_of_bound hbinding hsession,
      RoomManager.detachConnection_of_bound hL.valid hroom hmember hmconn, ne_eq,
      not_true_eq_false, if_false, SessionManager.detach, hbinding, hsession,
      SessionManager.detach_of_bound hstate hconn, Bool.not_true, Bool.false_eq_true]

/-- The service without a player whose session is offline. -/
def removed (service : RoomService) (token : Bytes) (session : Session) (room : Room) :
    RoomService :=
  ⟨service.roomManager.setRoom session.roomId (room.dismiss session.playerId),
    { service.sessionManager with
      sessions := service.sessionManager.sessions.erase token }⟩

/-- Players whose sessions are offline are removed one after the other. -/
inductive Removals : RoomService → RoomService → List Event → Prop
  | nil {first : RoomService} : Removals first first []
  | cons {first last : RoomService} {token session room es es'}
      (hsession : first.sessionManager.sessions.lookup token = some session)
      (hoffline : session.state = .offline)
      (hroom : first.roomManager.rooms.lookup session.roomId = some room)
      (hes : Broadcast ⟨MessageType.playerLeft.toU16, Protocol.appendU32 session.roomId
          ++ Protocol.appendU64 session.playerId⟩
        ((room.dismiss session.playerId).connections 0) es)
      (h : Removals (first.removed token session room) last es') :
      Removals first last (es ++ es')

/-- The bindings lead to sessions that are not offline. -/
theorem lookup_binding_offline (hL : service.Represents L) {token : Bytes} {session : Session}
    (hsession : service.sessionManager.sessions.lookup token = some session)
    (hoffline : session.state = .offline) (c : ConnId) (t : Bytes) :
  service.sessionManager.bindings.lookup c = some t
    ↔ t ≠ token ∧ service.sessionManager.bindings.lookup c = some t
  := by
  refine ⟨fun ht => ⟨?_, ht⟩, And.right⟩
  rintro rfl
  obtain ⟨session', hsession', -, hstate'⟩ := hL.session_of_binding ht
  rw [hsession] at hsession'
  cases hsession'
  rw [hoffline] at hstate'
  cases hstate'

/-- Removing a player keeps the service in step with claims. -/
theorem removed_represents (hL : service.Represents L) {token : Bytes} {session : Session}
    {room : Room} (hsession : service.sessionManager.sessions.lookup token = some session)
    (hoffline : session.state = .offline)
    (hroom : service.roomManager.rooms.lookup session.roomId = some room) :
  (service.removed token session room).Represents (L.drop token)
  := hL.remove hsession hroom (lookup_binding_offline hL hsession hoffline)

/-- The events of `removeExpired` come behind the earlier ones. -/
theorem removeExpired_removals (answers : Answers) (now : Int)
    (expired : List SessionManager.ExpiredSession) (hL : service.Represents L)
    (events : List Event)
    (hexpired : ∀ item ∈ expired, item ∈ service.sessionManager.expiredSessions now)
    (hnodup : (expired.map fun item => item.token).Nodup) :
  ∃ es, (removeExpired answers now service events expired).2 = events ++ es
    ∧ Removals service (removeExpired answers now service events expired).1 es
    ∧ ∀ t, (removeExpired answers now service events expired).1.sessionManager.sessions.lookup t
      = if t ∈ expired.map fun item => item.token then none
        else service.sessionManager.sessions.lookup t
  := by
  induction expired generalizing service events L with
  | nil => exact ⟨[], (List.append_nil events).symm, .nil, fun _ => rfl⟩
  | cons item expired ih =>
    rw [List.map_cons, List.nodup_cons] at hnodup
    obtain ⟨session, hsession, hoffline, hpast, hr, hp⟩ :=
      SessionManager.mem_expiredSessions.mp (hexpired item List.mem_cons_self)
    have hclaim := hL.claim_of_session hsession
    rw [hL.offline_connection hsession hoffline] at hclaim
    obtain ⟨room, member, hroom, hmember, -⟩ := hL.member_of_claim hclaim
    have hmem := AList.mem_iff_lookup.mpr ⟨member, hmember⟩
    obtain ⟨es, hbroadcast, hes⟩ := broadcastFrame_spec answers events
      ((room.dismiss session.playerId).connections 0)
      (show MessageType.playerLeft ≠ .stateSnapshot by decide)
      (Protocol.appendU32 session.roomId ++ Protocol.appendU64 session.playerId)
    have hexpired' : ∀ item' ∈ expired, item' ∈ SessionManager.expiredSessions
        (service.removed item.token session room).sessionManager now := by
      intro item' hitem'
      have hne : item'.token ≠ item.token := by
        intro heq
        apply hnodup.1
        rw [← heq]
        apply List.mem_map_of_mem hitem'
      obtain ⟨session', hsession', h'⟩ := SessionManager.mem_expiredSessions.mp
        (hexpired item' (List.mem_cons_of_mem item hitem'))
      apply SessionManager.mem_expiredSessions.mpr
      use session'
      refine ⟨?_, h'⟩
      dsimp only [removed]
      rw [AList.lookup_erase_eq_ite, if_neg hne, hsession']
    obtain ⟨es', heq, hes', hsessions⟩ := ih (removed_represents hL hsession hoffline hroom)
      (events ++ es) hexpired' hnodup.2
    rw [removed] at heq hes' hsessions
    rw [removeExpired]
    simp only [hr, hp, RoomManager.leave_of_member hL.valid hroom hmem, ne_eq,
      not_true_eq_false, if_false, SessionManager.eraseExpired_of_expired hsession hoffline hpast,
      Protocol.encodePlayerLeft, hbroadcast]
    refine ⟨es ++ es', ?_, .cons hsession hoffline hroom hes hes', ?_⟩
    · rw [heq, List.append_assoc]
    · intro t
      rw [hsessions, List.map_cons]
      by_cases htoken : t = item.token
      · rw [htoken, if_pos List.mem_cons_self, AList.lookup_erase, ite_self]
      · simp only [List.mem_cons, htoken, false_or, AList.lookup_erase_ne htoken]

/-- What becomes of a task. -/
inductive TaskOutcome (service : RoomService) (task : Task) : RoomService → List Event → Prop
  | idle : TaskOutcome service task service []
  | join {c type payload token now service' es}
      (htask : task = .frame (some c) type payload token now)
      (h : JoinOutcome service c payload token service' es) : TaskOutcome service task service' es
  | resume {c payload now service' es} (h : ResumeOutcome service c payload now service' es) :
      TaskOutcome service task service' es
  | leave {c service' es} (h : LeaveOutcome service c service' es) :
      TaskOutcome service task service' es
  | chat {c es} (h : ChatOutcome service c es) : TaskOutcome service task service es
  | command {c requestType service' es} (h : CommandOutcome service c requestType service' es) :
      TaskOutcome service task service' es
  | closed {c token session room member}
      (hbinding : service.sessionManager.bindings.lookup c = some token)
      (hsession : service.sessionManager.sessions.lookup token = some session)
      (hroom : service.roomManager.rooms.lookup session.roomId = some room)
      (hmember : room.members.lookup session.playerId = some member) (deadline : Int) :
      TaskOutcome service task
        ⟨service.roomManager.setRoom session.roomId (room.seat member none),
          { service.sessionManager with
            sessions := service.sessionManager.sessions.assign token
              { session with
                connection := none
                offlineDeadline := deadline
                state := .offline }
            bindings := service.sessionManager.bindings.erase c }⟩ []
  | tick {expirations es} (htask : task = .tick expirations) (hexpirations : expirations ≠ 0)
      (hes : Snapshots service.roomManager.tickRooms.1 es) :
      TaskOutcome service task
        { service with roomManager := service.roomManager.tickRooms.2 } es
  | timeouts {service' es} (h : Removals service service' es) :
      TaskOutcome service task service' es

theorem run_outcome (hL : service.Represents L) (answers : Answers) (task : Task) :
  TaskOutcome service task (service.run answers task).1 (service.run answers task).2
  := by
  cases task with
  | frame connection type payload token now =>
    rw [run, handleFrameInLoop]
    cases connection with
    | none => exact .idle
    | some c =>
      rw [if_neg (by simp)]
      split
      · exact .join rfl (handleJoin_outcome hL answers token c payload)
      · exact .leave (handleLeave_outcome hL answers c payload)
      · obtain ⟨hsame, hes⟩ := handleChat_outcome hL answers c payload
        rw [hsame]
        exact .chat hes
      · exact .command (handleMove_outcome hL answers c payload)
      · exact .command (handleAttack_outcome hL answers c payload)
      · exact .resume (handleResume_outcome hL answers now c payload)
      · exact .idle
  | connectionClosed connection now =>
    rw [run]
    cases connection with
    | none => exact .idle
    | some c =>
      obtain ⟨-, hsame⟩
          | ⟨token, session, room, member, hbinding, hsession, hroom, hmember, hclosed⟩ :=
        handleConnectionClosed_cases hL c now
      · rw [hsame]
        exact .idle
      · rw [hclosed]
        exact .closed hbinding hsession hroom hmember _
  | tick expirations =>
    rw [run, handleTick]
    split
    · exact .idle
    · next hexpirations =>
      obtain ⟨es, hsend, hes⟩ := sendSnapshots_spec answers service.roomManager.tickRooms.1 []
      rw [List.nil_append] at hsend
      dsimp only
      rw [hsend]
      exact .tick rfl hexpirations hes
  | sessionTimeouts now =>
    obtain ⟨es, heq, hes, -⟩ := removeExpired_removals answers now
      (service.sessionManager.expiredSessions now) hL [] (fun _ => id)
      (service.sessionManager.nodup_expiredSessions now)
    rw [run, handleSessionTimeouts, heq]
    exact .timeouts hes

end Tasks

end RoomService

end RoomServer
