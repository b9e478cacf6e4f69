import RoomServer.Service.Runs

/-!
# Responses

A client that asks to join, to leave, to chat or to resume waits for a response: a frame that
its connection accepts, or else the end of the connection.  Some exits of the handlers give
neither.  A request is `Answerable` when it takes none of these exits, which is a condition on
the request, the generated token and the service before it; exactly the answerable requests are
answered.
-/

namespace RoomServer

/-- The connection has accepted a frame, or it is asked to close. -/
def Heard (c : ConnId) (es : List Event) : Prop :=
  (∃ frame, .sent c frame true ∈ es) ∨ .closeRequested c ∈ es

/-- The connection has accepted the response to a join or to a resume, or it is asked to close. -/
def Welcomed (c : ConnId) (es : List Event) : Prop :=
  (∃ type ∈ [MessageType.joinOk, .resumeOk], ∃ payload,
      .sent c (Codec.frameBytes ⟨type.toU16, payload⟩) true ∈ es)
    ∨ .closeRequested c ∈ es

variable {c : ConnId} {es es' : List Event} {f : Frame}

theorem not_heard_nil : ¬Heard c [] := by simp [Heard]

theorem Heard.append_left (h : Heard c es) : Heard c (es ++ es') := by
  rcases h with ⟨frame, hmem⟩ | hmem
  · exact .inl ⟨frame, List.mem_append_left es' hmem⟩
  · exact .inr (List.mem_append_left es' hmem)

theorem Heard.append_right (h : Heard c es') : Heard c (es ++ es') := by
  rcases h with ⟨frame, hmem⟩ | hmem
  · exact .inl ⟨frame, List.mem_append_right es hmem⟩
  · exact .inr (List.mem_append_right es hmem)

theorem heard_append : Heard c (es ++ es') ↔ Heard c es ∨ Heard c es' := by
  constructor
  · rintro (⟨frame, hmem⟩ | hmem) <;> rcases List.mem_append.mp hmem with hmem | hmem
    · exact .inl (.inl ⟨frame, hmem⟩)
    · exact .inr (.inl ⟨frame, hmem⟩)
    · exact .inl (.inr hmem)
    · exact .inr (.inr hmem)
  · rintro (h | h)
    · apply h.append_left
    · apply h.append_right

/-- A frame that is sent is heard when it is short enough to be written. -/
theorem SentTo.heard_iff (h : SentTo c f es) : Heard c es ↔ Codec.Fits f := by
  cases h with
  | unfit hunfit => exact ⟨fun h => absurd h not_heard_nil, fun h => absurd h hunfit⟩
  | accepted hfits => exact ⟨fun _ => hfits, fun _ => .inl ⟨_, List.mem_singleton_self _⟩⟩
  | refused hfits => exact ⟨fun _ => hfits, fun _ => .inr (by simp)⟩

theorem SentTo.not_heard_other {c' : ConnId} (h : SentTo c' f es) (hne : c' ≠ c) :
  ¬Heard c es
  := by
  cases h <;> simp [Heard, Ne.symm hne]

/-- A response to a join or to a resume. -/
theorem SentTo.welcomed {type : MessageType} {payload : Bytes}
    (h : SentTo c ⟨type.toU16, payload⟩ es) (htype : type ∈ [MessageType.joinOk, .resumeOk])
    (hfits : Codec.Fits ⟨type.toU16, payload⟩) :
  Welcomed c es
  := by
  cases h with
  | unfit hunfit => exact absurd hfits hunfit
  | accepted => exact .inl ⟨type, htype, payload, List.mem_singleton_self _⟩
  | refused => exact .inr (by simp)

theorem Welcomed.append_left (h : Welcomed c es) : Welcomed c (es ++ es') := by
  rcases h with ⟨type, htype, payload, hmem⟩ | hmem
  · exact .inl ⟨type, htype, payload, List.mem_append_left es' hmem⟩
  · exact .inr (List.mem_append_left es' hmem)

/-- A frame that is sent to some connections is heard by no other. -/
theorem Broadcast.not_heard {connections : List ConnectionPtr} (h : Broadcast f connections es)
    (hc : some c ∉ connections) :
  ¬Heard c es
  := by
  induction h with
  | nil => exact not_heard_nil
  | null _ ih => apply ih fun hmem => hc (List.mem_cons_of_mem _ hmem)
  | @cons c' _ _ _ hsent _ ih =>
    rw [heard_append, not_or]
    constructor
    · apply hsent.not_heard_other
      rintro rfl
      apply hc List.mem_cons_self
    · apply ih fun hmem => hc (List.mem_cons_of_mem _ hmem)

/-- A frame that is sent to some connections is heard by them. -/
theorem Broadcast.heard {connections : List ConnectionPtr} (h : Broadcast f connections es)
    (hfits : Codec.Fits f) (hc : some c ∈ connections) :
  Heard c es
  := by
  induction h with
  | nil => cases hc
  | null _ ih =>
    rcases List.mem_cons.mp hc with heq | hmem
    · cases heq
    · apply ih hmem
  | cons hsent _ ih =>
    rcases List.mem_cons.mp hc with heq | hmem
    · cases heq
      apply (hsent.heard_iff.mpr hfits).append_left
    · apply (ih hmem).append_right

theorem Denied.heard {requestType : MessageType} (h : Denied c requestType es) : Heard c es := by
  obtain ⟨errorCode, hes⟩ := h
  apply hes.heard_iff.mpr
  simp [Codec.Fits]

namespace RoomService

variable {service service' : RoomService} {L : Ledger} {payload token : Bytes} {now : Int}

/-! ### Answerable requests -/

/-- The bytes the members of a room take in a payload. -/
def membersSize (room : Room) : Nat :=
  Protocol.membersSize (room.members.values.map Room.Member.info)

/-- A player that a room would take gets a session under a new token of a proper size, does not
fill a room that is too large for a game, and is told in one frame. -/
def JoinAnswerable (service : RoomService) (c : ConnId) (payload token : Bytes) : Prop :=
  ∀ request room, Protocol.decodeJoinRequest payload = some request →
    c ∉ service.sessionManager.bindings →
    service.roomManager.rooms.lookup request.roomId = some room →
    room.Admits request.playerName →
    token ≠ [] ∧ token ∉ service.sessionManager.sessions ∧ token.length ≤ Protocol.maxTokenSize
      ∧ (room.members.size + 1 = room.capacity.toNat →
        room.capacity.toNat ≤ Gamestate.maxPlayers)
      ∧ 16 + token.length + membersSize room ≤ 65534

/-- The connection is not bound, and the player of a waiting session is told in one frame. -/
def ResumeAnswerable (service : RoomService) (c : ConnId) (payload : Bytes) (now : Int) : Prop :=
  ∀ request, Protocol.decodeResumeRequest payload = some request →
    c ∉ service.sessionManager.bindings
      ∧ ∀ session room, service.sessionManager.sessions.lookup request.token = some session →
        SessionManager.Waits session now →
        service.roomManager.rooms.lookup session.roomId = some room →
        26 + membersSize room + 20 * room.gameState.players.size ≤ 65534

/-- The handler of the request comes to no silent end. -/
def Answerable (service : RoomService) (c : ConnId) (type : MessageType)
    (payload token : Bytes) (now : Int) : Prop :=
  match type with
  | .join => service.JoinAnswerable c payload token
  | .resume => service.ResumeAnswerable c payload now
  | _ => True

/-- The requests a client waits for the response of. -/
def criticalTypes : List MessageType := [.join, .leave, .chat, .resume]

/-- The connection of a request hears something, and the response if it was bound. -/
structure Answered (service : RoomService) (c : ConnId) (outcome : RoomService × List Event) :
    Prop where
  heard : Heard c outcome.2
  welcomed : c ∉ service.sessionManager.bindings → c ∈ outcome.1.sessionManager.bindings →
    Welcomed c outcome.2

/-- A request that changes no binding is answered when its connection hears something. -/
theorem answered_of_heard (h : Heard c es)
    (hbindings : c ∈ service'.sessionManager.bindings → c ∈ service.sessionManager.bindings) :
  Answered service c (service', es)
  := ⟨h, fun hc hc' => absurd (hbindings hc') hc⟩

theorem not_answered_nil : ¬Answered service c (service', []) := fun h => not_heard_nil h.heard

/-! ### Joining -/

/-- A welcome player is one there is a token for and that can be told and can play. -/
theorem welcomes_iff {r : UInt32} {room : Room} (hvalid : room.Valid)
    (hsize : membersSize room ≤ 65534) :
  service.Welcomes r room token
    ↔ token ≠ [] ∧ token ∉ service.sessionManager.sessions
      ∧ token.length ≤ Protocol.maxTokenSize
      ∧ (room.members.size + 1 = room.capacity.toNat →
        room.capacity.toNat ≤ Gamestate.maxPlayers)
  := by
  have hcount : (room.members.values.map Room.Member.info).length ≤ Protocol.maxU16 := by
    have hle := Protocol.length_le_membersSize (room.members.values.map Room.Member.info)
    rw [membersSize] at hsize
    simp only [Protocol.maxU16]
    omega
  have hnames : ∀ member ∈ room.members.values.map Room.Member.info,
      Protocol.NameFits member.playerName := by
    intro info hinfo
    obtain ⟨member, hmember, rfl⟩ := List.mem_map.mp hinfo
    obtain ⟨k, hk⟩ := AList.mem_values.mp hmember
    apply hvalid.name_fits hk
  constructor
  · rintro ⟨hne, hnew, hresponse, hplays⟩
    obtain ⟨⟨-, hlen⟩, -⟩ := Protocol.encodeJoinOk_eq_some_iff.mp hresponse
    exact ⟨hne, hnew, hlen, hplays⟩
  · rintro ⟨hne, hnew, hlen, hplays⟩
    exact ⟨hne, hnew, Protocol.encodeJoinOk_eq_some_iff.mpr ⟨⟨hne, hlen⟩, hcount, hnames⟩, hplays⟩

/-- A connection without a player is not one of those a room lists. -/
theorem unbound_notMem_connections (hL : service.Represents L)
    (hc : c ∉ service.sessionManager.bindings) {r : UInt32} {room : Room} {name : Bytes}
    (hroom : service.roomManager.rooms.lookup r = some room) :
  some c ∉ (room.enrol name (some c)).connections room.nextPlayerId
  := by
  rw [Room.mem_connections]
  rintro ⟨p, member, c', hmember, hne, hconn, heq⟩
  cases heq
  rw [lookup_enrol, if_neg hne] at hmember
  have hmember' : (service.roomManager.member r p).map Room.Member.connection = some (some c) := by
    rw [RoomManager.member_eq hroom, hmember, ← hconn]
    rfl
  obtain ⟨t, ht⟩ := hL.member.mp hmember'
  apply hL.connFree_of_notMem hc t _ ht

theorem JoinOutcome.answered_iff (hL : service.Represents L)
    (h : JoinOutcome service c payload token service' es) :
  Answered service c (service', es) ↔ service.JoinAnswerable c payload token
  := by
  cases h with
  | denied hnot hes =>
    constructor
    · intro _ request room hrequest hc hroom hadmits
      exact absurd hadmits (hnot request room hrequest hc hroom)
    · exact fun _ => answered_of_heard hes.heard id
  | @undone request room hrequest hc hroom hadmits hnot =>
    constructor
    · exact fun h => absurd h not_answered_nil
    · intro h
      obtain ⟨hne, hnew, hlen, hplays, hsize⟩ := h request room hrequest hc hroom hadmits
      apply absurd _ hnot
      apply (welcomes_iff (hL.valid.valid hroom) (by omega)).mpr ⟨hne, hnew, hlen, hplays⟩
  | @committed request room room' response es es' hrequest hc hroom hadmits hwelcomes hroom'
      hresponse hes hes' =>
    have hlength := Protocol.length_encodeJoinOk hresponse
    have hfits : Codec.Fits ⟨MessageType.joinOk.toU16, response⟩
        ↔ 16 + token.length + membersSize room ≤ 65534 := by
      rw [Codec.Fits, hlength, membersSize]
    constructor
    · intro h request' room'' hrequest' _ hroom'' _
      rw [hrequest, Option.some.injEq] at hrequest'
      subst hrequest'
      rw [hroom, Option.some.injEq] at hroom''
      subst hroom''
      have hheard := h.heard
      rw [heard_append] at hheard
      rcases hheard with hheard | hheard
      · have hsize := hfits.mp (hes.heard_iff.mp hheard)
        obtain ⟨hne, hnew, hlen, hplays⟩ :=
          (welcomes_iff (hL.valid.valid hroom) (by omega)).mp hwelcomes
        exact ⟨hne, hnew, hlen, hplays, hsize⟩
      · exact absurd hheard (hes'.not_heard (unbound_notMem_connections hL hc hroom))
    · intro h
      obtain ⟨-, -, -, -, hsize⟩ := h request room hrequest hc hroom hadmits
      have hshort := hfits.mpr hsize
      constructor
      · apply (hes.heard_iff.mpr hshort).append_left
      · intro _ _
        apply (hes.welcomed (by decide) hshort).append_left

/-! ### Resuming -/

/-- A room takes the same bytes whoever is seated. -/
theorem membersSize_memberSnapshot {room : Room} (hvalid : room.Valid) {p : UInt64}
    {member : Room.Member} (hmember : room.members.lookup p = some member)
    (connection : ConnectionPtr) :
  Protocol.membersSize (room.seat member connection).memberSnapshot = membersSize room
    ∧ (room.seat member connection).memberSnapshot.Perm
      (room.members.values.map Room.Member.info)
  := by
  have hinfos : (room.seat member connection).members.values.map Room.Member.info
      = room.members.values.map Room.Member.info := by
    rw [Room.seat, hvalid.key hmember]
    apply AList.map_values_assign hmember Room.Member.info
    rw [Room.Member.info, Room.Member.info, hvalid.key hmember]
  have hperm : (room.seat member connection).memberSnapshot.Perm
      (room.members.values.map Room.Member.info) := by
    rw [← hinfos]
    apply List.sortOn_perm _ _
  refine ⟨?_, hperm⟩
  rw [membersSize, Protocol.membersSize, Protocol.membersSize]
  apply (hperm.map _).sum_nat

/-- The response to a resume can be written unless there are too many members or players. -/
theorem encodeResumeOk_of_counts {room : Room} (hvalid : room.Valid) {p : UInt64}
    {member : Room.Member} (hmember : room.members.lookup p = some member) (r : UInt32)
    (hmembers : room.members.size ≤ Protocol.maxU16)
    (hplayers : room.gameState.players.size ≤ Protocol.maxU16) :
  ∃ response, Protocol.encodeResumeOk r p room.stateMachine.state room.tickId
    (room.seat member (some c)).memberSnapshot room.gameState.snapshot = some response
  := by
  obtain ⟨-, hperm⟩ := membersSize_memberSnapshot hvalid hmember (some c)
  apply Protocol.encodeResumeOk_eq_some_iff.mpr
  refine ⟨⟨?_, ?_⟩, ?_, ?_⟩
  · rw [hperm.length_eq, List.length_map, AList.values, List.length_map]
    exact hmembers
  · rw [Gamestate.length_snapshot]
    exact hplayers
  · intro info hinfo
    obtain ⟨member', hmember', rfl⟩ := List.mem_map.mp (hperm.mem_iff.mp hinfo)
    obtain ⟨k, hk⟩ := AList.mem_values.mp hmember'
    apply hvalid.name_fits hk
  · intro state hstate hzero
    have hkeyed : room.gameState.Keyed := fun k state hk => hvalid.game_key hk
    have hplayer := AList.mem_iff_lookup.mpr ⟨state, hkeyed.mem_snapshot.mp hstate⟩
    by_cases hwaiting : room.stateMachine.state = .waiting
    · apply hvalid.game_empty hwaiting hplayer
    · apply hvalid.id_ne_zero ((hvalid.mem_game hwaiting).mp hplayer) hzero

/-- The response to a resume can be written when it fits a frame. -/
theorem encodeResumeOk_of_size {room : Room} (hvalid : room.Valid) {p : UInt64}
    {member : Room.Member} (hmember : room.members.lookup p = some member) (r : UInt32)
    (hsize : 26 + membersSize room + 20 * room.gameState.players.size ≤ 65534) :
  ∃ response, Protocol.encodeResumeOk r p room.stateMachine.state room.tickId
    (room.seat member (some c)).memberSnapshot room.gameState.snapshot = some response
  := by
  have hcount := Protocol.length_le_membersSize (room.members.values.map Room.Member.info)
  rw [List.length_map, AList.values, List.length_map, ← AList.values] at hcount
  rw [membersSize] at hsize
  apply encodeResumeOk_of_counts hvalid hmember
  · rw [AList.size]
    simp only [Protocol.maxU16]
    omega
  · simp only [Protocol.maxU16]
    omega

theorem ResumeOutcome.answered_iff (hL : service.Represents L)
    (h : ResumeOutcome service c payload now service' es) :
  Answered service c (service', es) ↔ service.ResumeAnswerable c payload now
  := by
  cases h with
  | denied hnot hes =>
    constructor
    · intro _ request hrequest
      obtain ⟨hc, hwaits⟩ := hnot request hrequest
      refine ⟨hc, ?_⟩
      intro session room hsession hwaits'
      exact absurd hwaits' (hwaits session hsession)
    · exact fun _ => answered_of_heard hes.heard id
  | @ignored request hrequest hc =>
    constructor
    · exact fun h => absurd h not_answered_nil
    · exact fun h => absurd hc (h request hrequest).1
  | @undone request session room member hrequest _ hsession hwaits hroom hmember hresponse =>
    constructor
    · exact fun h => absurd h not_answered_nil
    · intro h
      have hsize := (h request hrequest).2 session room hsession hwaits hroom
      obtain ⟨response, hsome⟩ := encodeResumeOk_of_size (c := c) (hL.valid.valid hroom) hmember
        session.roomId hsize
      rw [hresponse] at hsome
      cases hsome
  | @committed request session room member response _ hrequest hc hsession hwaits hroom hmember
      hresponse hes =>
    have hfits : Codec.Fits ⟨MessageType.resumeOk.toU16, response⟩
        ↔ 26 + membersSize room + 20 * room.gameState.players.size ≤ 65534 := by
      obtain ⟨hsize, -⟩ := membersSize_memberSnapshot (hL.valid.valid hroom) hmember (some c)
      rw [Codec.Fits, Protocol.length_encodeResumeOk hresponse, hsize,
        Gamestate.length_snapshot]
    constructor
    · intro h request' hrequest'
      rw [hrequest, Option.some.injEq] at hrequest'
      subst hrequest'
      refine ⟨hc, ?_⟩
      intro session' room' hsession' _ hroom'
      rw [hsession, Option.some.injEq] at hsession'
      subst hsession'
      rw [hroom, Option.some.injEq] at hroom'
      subst hroom'
      apply hfits.mp (hes.heard_iff.mp h.heard)
    · intro h
      have hshort := hfits.mpr ((h request hrequest).2 session room hsession hwaits hroom)
      exact ⟨hes.heard_iff.mpr hshort, fun _ _ => hes.welcomed (by decide) hshort⟩

/-! ### Leaving and chatting -/

theorem LeaveOutcome.answered (h : LeaveOutcome service c service' es) :
  Answered service c (service', es)
  := by
  cases h with
  | denied hes => apply answered_of_heard hes.heard id
  | left _ _ _ _ hes =>
    apply answered_of_heard
    · apply Heard.append_left
      apply hes.heard_iff.mpr
      simp [Codec.Fits]
    · exact fun hc => (AList.mem_erase.mp hc).2

theorem ChatOutcome.answered (hL : service.Represents L) (h : ChatOutcome service c es) :
  Answered service c (service, es)
  := by
  cases h with
  | denied hes => apply answered_of_heard hes.heard id
  | @said _ session room member message _ _ _ hroom hmember hconn hmessage hes =>
    refine answered_of_heard ?_ id
    apply hes.heard
    · simp only [Codec.Fits, List.length_append, Protocol.length_appendU32,
        Protocol.length_appendU64, Protocol.length_appendText, Protocol.maxChatMessageSize]
        at hmessage ⊢
      omega
    · have hid := (hL.valid.valid hroom).id_ne_zero (AList.mem_iff_lookup.mpr ⟨member, hmember⟩)
      apply Room.mem_connections.mpr ⟨session.playerId, member, c, hmember, hid, hconn, rfl⟩

/-- In every state the service reaches, a request to join, to leave, to chat or to resume is
answered if and only if it is answerable. -/
theorem answered_iff_of_reachable (h : system.Reachable service) (answers : Answers) (c : ConnId)
    {type : MessageType} (htype : type ∈ criticalTypes) (payload token : Bytes) (now : Int) :
  Answered service c (service.run answers (.frame (some c) type.toU16 payload token now))
    ↔ service.Answerable c type payload token now
  := by
  obtain ⟨L, hL⟩ := represents_of_reachable h
  rw [run, handleFrameInLoop, if_neg (by simp), MessageType.ofU16_toU16]
  cases type with
  | join => apply (handleJoin_outcome hL answers token c payload).answered_iff hL
  | leave =>
    have hanswered := (handleLeave_outcome hL answers c payload).answered
    exact ⟨fun _ => trivial, fun _ => hanswered⟩
  | chat =>
    obtain ⟨hsame, houtcome⟩ := handleChat_outcome hL answers c payload
    have hanswered : Answered service c (service.handleChat answers (some c) payload) := by
      rw [← Prod.mk.eta (p := service.handleChat answers (some c) payload), hsame]
      apply houtcome.answered hL
    exact ⟨fun _ => trivial, fun _ => hanswered⟩
  | resume => apply (handleResume_outcome hL answers now c payload).answered_iff hL
  | move => exact absurd htype (by decide)
  | attack => exact absurd htype (by decide)
  | heartbeat => exact absurd htype (by decide)
  | joinOk => exact absurd htype (by decide)
  | playerJoined => exact absurd htype (by decide)
  | leaveOk => exact absurd htype (by decide)
  | playerLeft => exact absurd htype (by decide)
  | chatEvent => exact absurd htype (by decide)
  | stateSnapshot => exact absurd htype (by decide)
  | error => exact absurd htype (by decide)
  | heartbeatAck => exact absurd htype (by decide)
  | resumeOk => exact absurd htype (by decide)

/-- A player leaves on the connection 7. -/
theorem joined_answered :
  Answered joined 7 (joined.run ⟨fun _ _ _ => true, fun _ _ => false⟩
    (.frame (some 7) MessageType.leave.toU16 [] [] 0))
  := (answered_iff_of_reachable joined_reachable _ 7 (by decide) [] [] 0).mpr trivial

/-- A client that asks to resume on a connection that is bound hears nothing, and neither does
one that joins when there is no token to be had. -/
theorem unanswered :
  system.Reachable joined
    ∧ ¬Answered joined 7 (joined.run ⟨fun _ _ _ => true, fun _ _ => false⟩
      (.frame (some 7) MessageType.resume.toU16 [0, 1, 97] [] 0))
    ∧ ¬Answered joined 8 (joined.run ⟨fun _ _ _ => true, fun _ _ => false⟩
      (.frame (some 8) MessageType.join.toU16 [0, 0, 0, 1, 0, 1, 66] [] 0))
  := by
  have hresume : (joined.run ⟨fun _ _ _ => true, fun _ _ => false⟩
      (.frame (some 7) MessageType.resume.toU16 [0, 1, 97] [] 0)).2 = [] := by decide +kernel
  have hjoin : (joined.run ⟨fun _ _ _ => true, fun _ _ => false⟩
      (.frame (some 8) MessageType.join.toU16 [0, 0, 0, 1, 0, 1, 66] [] 0)).2 = [] := by
    decide +kernel
  refine ⟨joined_reachable, ?_, ?_⟩
  · intro h
    have hheard := h.heard
    rw [hresume] at hheard
    apply not_heard_nil hheard
  · intro h
    have hheard := h.heard
    rw [hjoin] at hheard
    apply not_heard_nil hheard

end RoomService

end RoomServer
