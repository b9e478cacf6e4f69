import RoomServer.Game.TickLoop
import RoomServer.Service.Offers

/-!
# Rooms do not meet

The rooms share one table of sessions, one table of bindings and one way to broadcast.  Even so
a request that `Concerns` a room is `Confined` to it: the other rooms, their sessions and their
bindings stay as they are, and besides the connection of the request only the members of the
room are offered something.  A tick takes each room by itself.
-/

namespace RoomServer

variable {c : ConnId} {f : Frame} {es es' : List Event} {r : UInt32}

theorem SentTo.connection (h : SentTo c f es) : ∀ e ∈ es, e.connection = c := by
  cases h with
  | unfit => simp
  | accepted => simp [Event.connection]
  | refused => simp [Event.connection]

theorem Broadcast.connection {connections : List ConnectionPtr} (h : Broadcast f connections es) :
  ∀ e ∈ es, some e.connection ∈ connections
  := by
  induction h with
  | nil => simp
  | null _ ih =>
    intro e he
    apply List.mem_cons_of_mem _ (ih e he)
  | cons hsent _ ih =>
    intro e he
    rcases List.mem_append.mp he with he | he
    · rw [hsent.connection e he]
      apply List.mem_cons_self
    · apply List.mem_cons_of_mem _ (ih e he)

namespace RoomService

variable {service service' : RoomService} {L : Ledger}

/-- The task is a request on the connection, or the notification that it is closed, and it
concerns the room: the connection is bound there, or the request is to join the room or to
resume a session in it. -/
inductive Concerns (service : RoomService) (c : ConnId) (r : UInt32) : Task → Prop
  | request {p type payload token now} (h : service.seatOf c = some (r, p)) :
      Concerns service c r (.frame (some c) type payload token now)
  | closed {p now} (h : service.seatOf c = some (r, p)) :
      Concerns service c r (.connectionClosed (some c) now)
  | join {payload token now request}
      (hrequest : Protocol.decodeJoinRequest payload = some request) (hr : request.roomId = r) :
      Concerns service c r (.frame (some c) MessageType.join.toU16 payload token now)
  | resume {payload token now request session}
      (hrequest : Protocol.decodeResumeRequest payload = some request)
      (hsession : service.sessionManager.sessions.lookup request.token = some session)
      (hr : session.roomId = r) :
      Concerns service c r (.frame (some c) MessageType.resume.toU16 payload token now)

/-- The other rooms, their sessions and the bindings that lead to these are unchanged, and
nothing is sent but to the connection and to those that are bound in the room. -/
structure Confined (service : RoomService) (c : ConnId) (r : UInt32) (service' : RoomService)
    (es : List Event) : Prop where
  rooms : ∀ r', r' ≠ r →
    service'.roomManager.rooms.lookup r' = service.roomManager.rooms.lookup r'
  sessions : ∀ t session, session.roomId ≠ r →
    (service'.sessionManager.sessions.lookup t = some session
      ↔ service.sessionManager.sessions.lookup t = some session)
  bindings : ∀ c' t session, service.sessionManager.sessions.lookup t = some session →
    session.roomId ≠ r →
    (service'.sessionManager.bindings.lookup c' = some t
      ↔ service.sessionManager.bindings.lookup c' = some t)
  events : ∀ e ∈ es, e.connection = c ∨ ∃ p, service.seatOf e.connection = some (r, p)

/-- What leaves the service as it is is confined when it is only told to those concerned. -/
theorem confined_refl
    (h : ∀ e ∈ es, e.connection = c ∨ ∃ p, service.seatOf e.connection = some (r, p)) :
  Confined service c r service es
  := by
  constructor
  · exact fun _ _ => rfl
  · exact fun _ _ _ => Iff.rfl
  · exact fun _ _ _ _ _ => Iff.rfl
  · exact h

theorem confined_of_denied {requestType : MessageType} (r : UInt32)
    (h : Denied c requestType es) :
  Confined service c r service es
  := by
  obtain ⟨errorCode, hes⟩ := h
  apply confined_refl fun e he => .inl (hes.connection e he)

/-- Replacing a room leaves the other rooms. -/
theorem confined_setRoom {room : Room} (hroom : service.roomManager.rooms.lookup r = some room)
    (room' : Room) :
  Confined service c r { service with roomManager := service.roomManager.setRoom r room' } []
  := by
  constructor
  · intro r' hr'
    rw [RoomManager.lookup_setRoom hroom, if_neg hr']
  · exact fun _ _ _ => Iff.rfl
  · exact fun _ _ _ _ _ => Iff.rfl
  · simp

/-! ### Requests -/

theorem JoinOutcome.confined {payload token : Bytes} (hL : service.Represents L)
    (h : JoinOutcome service c payload token service' es)
    (hr : ∀ request, Protocol.decodeJoinRequest payload = some request →
      c ∉ service.sessionManager.bindings → request.roomId = r) :
  Confined service c r service' es
  := by
  cases h with
  | denied _ hes => apply confined_of_denied r hes
  | undone hrequest hc hroom =>
    obtain rfl := hr _ hrequest hc
    apply confined_setRoom hroom _
  | @committed request room room' response es es' hrequest hc hroom _ hwelcomes _ _ hes hes' =>
    obtain rfl := hr _ hrequest hc
    constructor
    · intro r' hr'
      rw [RoomManager.lookup_setRoom hroom, if_neg hr']
    · intro t session hother
      rw [AList.lookup_insert_eq_ite]
      split
      · next ht =>
        -- The token is new, and its session is in the room.
        subst ht
        rw [AList.lookup_eq_none.mpr hwelcomes.token_new]
        constructor
        · rintro ⟨⟩
          exact absurd rfl hother
        · rintro ⟨⟩
      · apply Iff.rfl
    · intro c' t session hsession _
      have ht : t ≠ token := by
        rintro rfl
        apply hwelcomes.token_new (AList.mem_iff_lookup.mpr ⟨session, hsession⟩)
      rw [AList.lookup_insert_eq_ite]
      split
      · next hcc =>
        subst hcc
        rw [AList.lookup_eq_none.mpr hc]
        simp [ht.symm]
      · apply Iff.rfl
    · intro e he
      rcases List.mem_append.mp he with he | he
      · exact .inl (hes.connection e he)
      · right
        obtain ⟨k, member, c', hmember, hne, hconn, heq⟩ :=
          Room.mem_connections.mp (hes'.connection e he)
        rw [lookup_enrol, if_neg hne] at hmember
        obtain ⟨p, hp, -⟩ := seatOf_of_mem_connections hL hroom
          (Room.mem_connections.mpr ⟨k, member, c', hmember, hne, hconn, heq⟩)
        exact ⟨p, hp⟩

theorem ResumeOutcome.confined {payload : Bytes} {now : Int}
    (h : ResumeOutcome service c payload now service' es)
    (hr : ∀ request session, Protocol.decodeResumeRequest payload = some request →
      c ∉ service.sessionManager.bindings →
      service.sessionManager.sessions.lookup request.token = some session → session.roomId = r) :
  Confined service c r service' es
  := by
  cases h with
  | denied _ hes => apply confined_of_denied r hes
  | ignored => apply confined_refl (by simp)
  | undone => apply confined_refl (by simp)
  | @committed request session room member response _ hrequest hc hsession _ hroom _ _ hes =>
    obtain rfl := hr _ _ hrequest hc hsession
    constructor
    · intro r' hr'
      rw [RoomManager.lookup_setRoom hroom, if_neg hr']
    · intro t session' hother
      rw [AList.lookup_assign_of_mem (AList.mem_iff_lookup.mpr ⟨session, hsession⟩)]
      split
      · next ht =>
        subst ht
        rw [hsession]
        constructor
        · rintro ⟨⟩
          exact absurd rfl hother
        · rintro ⟨⟩
          exact absurd rfl hother
      · apply Iff.rfl
    · intro c' t session' hsession' hother
      have ht : t ≠ request.token := by
        rintro rfl
        rw [hsession, Option.some.injEq] at hsession'
        apply hother (by rw [hsession'])
      rw [AList.lookup_insert_eq_ite]
      split
      · next hcc =>
        subst hcc
        rw [AList.lookup_eq_none.mpr hc]
        simp [ht.symm]
      · apply Iff.rfl
    · exact fun e he => .inl (hes.connection e he)

/-- The session of a connection is no longer bound, and has changed or ended: this is confined to
its room. -/
theorem confined_unbound {token : Bytes} {session : Session} {room : Room}
    {sessions : UnorderedMap Bytes Session}
    (hbinding : service.sessionManager.bindings.lookup c = some token)
    (hsession : service.sessionManager.sessions.lookup token = some session)
    (hroom : service.roomManager.rooms.lookup session.roomId = some room) (room' : Room)
    (hothers : ∀ t, t ≠ token →
      sessions.lookup t = service.sessionManager.sessions.lookup t)
    (hself : ∀ session', sessions.lookup token = some session' →
      session'.roomId = session.roomId)
    (hes : ∀ e ∈ es, e.connection = c
      ∨ ∃ p, service.seatOf e.connection = some (session.roomId, p)) :
  Confined service c session.roomId
    ⟨service.roomManager.setRoom session.roomId room', { service.sessionManager with
      sessions, bindings := service.sessionManager.bindings.erase c }⟩ es
  := by
  constructor
  · intro r' hr'
    rw [RoomManager.lookup_setRoom hroom, if_neg hr']
  · intro t session' hother
    by_cases ht : t = token
    · subst ht
      constructor
      · intro hsession'
        exact absurd (hself session' hsession') hother
      · intro hsession'
        rw [hsession, Option.some.injEq] at hsession'
        exact absurd (by rw [hsession']) hother
    · dsimp only
      rw [hothers t ht]
  · intro c' t session' hsession' hother
    have ht : t ≠ token := by
      rintro rfl
      rw [hsession, Option.some.injEq] at hsession'
      apply hother (by rw [hsession'])
    rw [AList.lookup_erase_eq_ite]
    split
    · next hcc =>
      subst hcc
      rw [hbinding]
      simp [ht.symm]
    · apply Iff.rfl
  · exact hes

theorem LeaveOutcome.confined (hL : service.Represents L)
    (h : LeaveOutcome service c service' es)
    (hr : ∀ token session, service.sessionManager.bindings.lookup c = some token →
      service.sessionManager.sessions.lookup token = some session → session.roomId = r) :
  Confined service c r service' es
  := by
  cases h with
  | denied hes => apply confined_of_denied r hes
  | @left token session room es es' hbinding hsession _ hroom hes hes' =>
    obtain rfl := hr _ _ hbinding hsession
    apply confined_unbound hbinding hsession hroom
    · exact fun t ht => AList.lookup_erase_ne ht
    · intro session' hsession'
      rw [AList.lookup_erase] at hsession'
      cases hsession'
    · intro e he
      rcases List.mem_append.mp he with he | he
      · exact .inl (hes.connection e he)
      · right
        have hmembers : ∀ k member,
            (room.dismiss session.playerId).members.lookup k = some member →
            room.members.lookup k = some member := by
          intro k member hmember
          rw [Room.dismiss, AList.lookup_erase_eq_ite, Option.ite_none_left_eq_some] at hmember
          apply hmember.2
        obtain ⟨p, hp, -⟩ := seatOf_of_mem_connections hL hroom
          (Room.mem_connections_of_lookup hmembers (hes'.connection e he))
        exact ⟨p, hp⟩

theorem ChatOutcome.confined (hL : service.Represents L) (h : ChatOutcome service c es)
    (hr : ∀ token session, service.sessionManager.bindings.lookup c = some token →
      service.sessionManager.sessions.lookup token = some session → session.roomId = r) :
  Confined service c r service es
  := by
  cases h with
  | denied hes => apply confined_of_denied r hes
  | said hbinding hsession hroom _ _ _ hes =>
    obtain rfl := hr _ _ hbinding hsession
    apply confined_refl
    intro e he
    obtain ⟨p, hp, -⟩ := seatOf_of_mem_connections hL hroom (hes.connection e he)
    exact .inr ⟨p, hp⟩

theorem CommandOutcome.confined {requestType : MessageType}
    (h : CommandOutcome service c requestType service' es)
    (hr : ∀ token session, service.sessionManager.bindings.lookup c = some token →
      service.sessionManager.sessions.lookup token = some session → session.roomId = r) :
  Confined service c r service' es
  := by
  cases h with
  | denied hes => apply confined_of_denied r hes
  | collected hbinding hsession hroom =>
    obtain rfl := hr _ _ hbinding hsession
    apply confined_setRoom hroom _

/-- A request or a notification is confined to a room that it concerns. -/
theorem Concerns.confined {task : Task} (hL : service.Represents L)
    (h : service.Concerns c r task) (answers : Answers) :
  Confined service c r (service.run answers task).1 (service.run answers task).2
  := by
  cases h with
  | closed hseat =>
    obtain ⟨-, hsame⟩ | ⟨token, session, room, member, hbinding, hsession, hroom, -, hclosed⟩ :=
      handleConnectionClosed_cases hL c _
    · rw [run, hsame]
      apply confined_refl (by simp)
    · rw [seatOf_of_binding hbinding hsession, Session.seat, Option.some.injEq,
        Prod.mk.injEq] at hseat
      obtain ⟨rfl, -⟩ := hseat
      rw [run, hclosed]
      have hlookup := AList.lookup_assign_of_mem (AList.mem_iff_lookup.mpr ⟨session, hsession⟩)
      apply confined_unbound hbinding hsession hroom
      · intro t ht
        rw [hlookup, if_neg ht]
      · intro session' hsession'
        rw [hlookup, if_pos rfl, Option.some.injEq] at hsession'
        rw [← hsession']
      · simp
  | join hrequest hr =>
    rw [run, handleFrameInLoop, if_neg (by simp), MessageType.ofU16_toU16]
    apply (handleJoin_outcome hL answers _ c _).confined hL
    intro request' hrequest' _
    rw [hrequest, Option.some.injEq] at hrequest'
    rw [← hrequest', hr]
  | resume hrequest hsession hr =>
    rw [run, handleFrameInLoop, if_neg (by simp), MessageType.ofU16_toU16]
    apply (handleResume_outcome hL answers _ c _).confined
    intro request' session' hrequest' _ hsession'
    rw [hrequest, Option.some.injEq] at hrequest'
    rw [← hrequest', hsession, Option.some.injEq] at hsession'
    rw [← hsession', hr]
  | @request p type payload token now hseat =>
    have hbound : ∀ token session, service.sessionManager.bindings.lookup c = some token →
        service.sessionManager.sessions.lookup token = some session → session.roomId = r := by
      intro token session hbinding hsession
      rw [seatOf_of_binding hbinding hsession, Session.seat, Option.some.injEq,
        Prod.mk.injEq] at hseat
      apply hseat.1
    have hmem : c ∈ service.sessionManager.bindings := by
      by_contra hc
      rw [seatOf_of_notMem hc] at hseat
      cases hseat
    rw [run, handleFrameInLoop, if_neg (by simp)]
    split
    · apply (handleJoin_outcome hL answers token c payload).confined hL
        fun _ _ hc => absurd hmem hc
    · apply (handleLeave_outcome hL answers c payload).confined hL hbound
    · obtain ⟨hsame, hes⟩ := handleChat_outcome hL answers c payload
      rw [hsame]
      apply hes.confined hL hbound
    · apply (handleMove_outcome hL answers c payload).confined hbound
    · apply (handleAttack_outcome hL answers c payload).confined hbound
    · apply (handleResume_outcome hL answers now c payload).confined
        fun _ _ _ hc => absurd hmem hc
    · apply confined_refl (by simp)

/-! ### Ticks -/

/-- The frame is the snapshot of the room after it has been ticked by itself. -/
def IsSnapshotOf (r : UInt32) (room : Room) (f : Frame) : Prop :=
  ∃ payload, Protocol.encodeStateSnapshot r room.tick.1.tickId room.tick.1.snapshot = some payload
    ∧ f = ⟨MessageType.stateSnapshot.toU16, payload⟩

/-- Whatever the order of the table of rooms, a tick takes each room by itself, changes nothing
else, and offers a connection the snapshot of its own room, if anything. -/
structure TickedApart (service : RoomService) (order : List UInt32) (service' : RoomService)
    (es : List Event) : Prop where
  service_eq : service' = { service with roomManager := (service.roomManager.tickLoop order).2 }
  apart : service.roomManager.TicksApart (service.roomManager.tickLoop order).1
    (service.roomManager.tickLoop order).2
  offers : ∀ c, offeredTo c es = [] ∨ ∃ r p room f, service.seatOf c = some (r, p)
    ∧ service.roomManager.rooms.lookup r = some room ∧ room.state = .running
    ∧ IsSnapshotOf r room f ∧ offeredTo c es = [f]

theorem handleTick_apart (hL : service.Represents L) (answers : Answers) {expirations : UInt64}
    (hexpirations : expirations ≠ 0) {order : List UInt32}
    (horder : order.Perm service.roomManager.rooms.keys) :
  TickedApart service order (service.handleTick answers expirations).1
    (service.handleTick answers expirations).2
  := by
  obtain ⟨-, hmanager⟩ := RoomManager.tickLoop_spec horder
  obtain ⟨es, hsend, hes⟩ := sendSnapshots_spec answers service.roomManager.tickRooms.1 []
  rw [List.nil_append] at hsend
  rw [handleTick, if_neg hexpirations]
  constructor
  · rw [hmanager]
  · apply hL.valid.ticksApart horder
  · intro c
    dsimp only
    rw [hsend]
    obtain hnone | ⟨r, p, room, result, payload, hp, -, hroom, hsome, hpayload, hone⟩ :=
      offeredTo_tick hL hes c
    · exact .inl hnone
    · right
      have hrunning := (RoomManager.tickResult_eq_some hsome).1
      rw [RoomManager.tickResult_of_running hrunning, Option.some.injEq] at hsome
      subst hsome
      dsimp only at hpayload
      rw [hL.valid.key hroom] at hpayload
      exact ⟨r, p, room, _, hp, hroom, hrunning, ⟨payload, hpayload, rfl⟩, hone⟩

/-- In every state the service reaches, a request or a notification that concerns a room is
confined to it, and a tick takes each room by itself. -/
theorem rooms_isolated (h : system.Reachable service) :
  (∀ answers task c r, service.Concerns c r task →
      Confined service c r (service.run answers task).1 (service.run answers task).2)
    ∧ ∀ answers expirations order, expirations ≠ 0 →
      order.Perm service.roomManager.rooms.keys →
      TickedApart service order (service.run answers (.tick expirations)).1
        (service.run answers (.tick expirations)).2
  := by
  obtain ⟨L, hL⟩ := represents_of_reachable h
  constructor
  · exact fun answers task c r hconcerns => hconcerns.confined hL answers
  · exact fun answers expirations order hexpirations horder =>
      handleTick_apart hL answers hexpirations horder

/-- The service with a room in which two players play, and an empty one beside it. -/
def beside : RoomService :=
  ((joined.run ⟨fun _ _ _ => true, fun _ _ => false⟩
    (.frame (some 8) MessageType.join.toU16 [0, 0, 0, 1, 0, 1, 66] [2] 0)).1.addRoom true 2 2).2

theorem beside_reachable :
  system.Reachable beside
  := by
  apply System.ReachableBy.step (ℓ := .addRoom 2 2) _ trivial rfl
  exact .step (ℓ := .task _ _) joined_reachable trivial rfl

theorem beside_isolated :
  (beside.roomManager.rooms.lookup 1).map Room.state = some .running
    ∧ Confined beside 9 2
      (beside.run ⟨fun _ _ _ => true, fun _ _ => false⟩
        (.frame (some 9) MessageType.join.toU16 [0, 0, 0, 2, 0, 1, 67] [3] 0)).1
      (beside.run ⟨fun _ _ _ => true, fun _ _ => false⟩
        (.frame (some 9) MessageType.join.toU16 [0, 0, 0, 2, 0, 1, 67] [3] 0)).2
    ∧ TickedApart beside [1, 2] (beside.run ⟨fun _ _ _ => true, fun _ _ => false⟩ (.tick 1)).1
      (beside.run ⟨fun _ _ _ => true, fun _ _ => false⟩ (.tick 1)).2
  := by
  obtain ⟨hconfined, hticked⟩ := rooms_isolated beside_reachable
  have hrequest : Protocol.decodeJoinRequest [0, 0, 0, 2, 0, 1, 67] = some ⟨2, [67]⟩ := rfl
  refine ⟨by decide +kernel, hconfined _ _ 9 2 (.join hrequest rfl), ?_⟩
  apply hticked _ 1 [1, 2] (by decide) (by decide +kernel)

end RoomService

end RoomServer
