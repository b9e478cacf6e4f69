import RoomServer.Lib.Claims
import RoomServer.Service.RoomService

/-!
# The coherence of the service

What the service is for is to keep `Claims`: tokens claim places in rooms, and hold them from
connections.  `Represents service L` says that the sessions, the bindings and the members of
the rooms of the service are three views of the claims `L`.

A `Transaction` is a change of the service that does its part in all three.  Every transaction
keeps the service in step with some claims, which themselves change by a step of claims.
-/

namespace RoomServer

/-- A place in a room. -/
abbrev Seat : Type := UInt32 × UInt64

/-- The claims of the players. -/
abbrev Ledger : Type := Claims Bytes Seat ConnId

namespace Session

/-- The place of the session. -/
def seat (session : Session) : Seat := (session.roomId, session.playerId)

/-- What the session's token is good for. -/
def claim (session : Session) : Seat × ConnectionPtr := (session.seat, session.connection)

/-- The session has a connection exactly while it is online. -/
def Consistent (session : Session) : Prop :=
  session.state = .online ↔ session.connection ≠ none

end Session

namespace RoomService

/-- The sessions, the bindings and the members of the rooms are views of the claims. -/
structure Represents (service : RoomService) (L : Ledger) : Prop where
  valid : service.roomManager.Valid
  session : ∀ t, (service.sessionManager.sessions.lookup t).map Session.claim = L.claim t
  consistent : ∀ {t session}, service.sessionManager.sessions.lookup t = some session →
    session.Consistent
  binding : ∀ {c t}, service.sessionManager.bindings.lookup c = some t
    ↔ ∃ seat, L.claim t = some (seat, some c)
  member : ∀ {r p conn}, (service.roomManager.member r p).map (fun m => m.connection) = some conn
    ↔ ∃ t, L.claim t = some ((r, p), conn)

variable {service : RoomService} {L : Ledger}

namespace Represents

theorem claim_of_session (h : service.Represents L) {t : Bytes} {session : Session}
    (ht : service.sessionManager.sessions.lookup t = some session) :
  L.claim t = some (session.seat, session.connection)
  := by
  rw [← h.session, ht]
  rfl

theorem session_of_claim (h : service.Represents L) {t : Bytes} {seat : Seat}
    {conn : ConnectionPtr} (ht : L.claim t = some (seat, conn)) :
  ∃ session, service.sessionManager.sessions.lookup t = some session
    ∧ session.seat = seat ∧ session.connection = conn
  := by
  rw [← h.session, Option.map_eq_some_iff] at ht
  obtain ⟨session, hsession, heq⟩ := ht
  use session, hsession
  simpa [Session.claim] using heq

/-- The member of a claim. -/
theorem member_of_claim (h : service.Represents L) {t : Bytes} {r : UInt32} {p : UInt64}
    {conn : ConnectionPtr} (ht : L.claim t = some ((r, p), conn)) :
  ∃ room member, service.roomManager.rooms.lookup r = some room
    ∧ room.members.lookup p = some member ∧ member.connection = conn
  := by
  obtain ⟨member, hmember, hconn⟩ := Option.map_eq_some_iff.mp (h.member.mpr ⟨t, ht⟩)
  obtain ⟨room, hroom, hmember⟩ := RoomManager.member_eq_some_iff.mp hmember
  use room, member

/-- A connection without a binding holds no seat. -/
theorem connFree_of_notMem (h : service.Represents L) {c : ConnId}
    (hc : c ∉ service.sessionManager.bindings) :
  L.ConnFree c
  := by
  intro t seat ht
  have hbinding := h.binding.mpr ⟨seat, ht⟩
  rw [AList.lookup_eq_none.mpr hc] at hbinding
  cases hbinding

/-- A place without a member is claimed by no token. -/
theorem not_claimed_of_no_member (h : service.Represents L) {r : UInt32} {p : UInt64}
    (hnone : service.roomManager.member r p = none) (t : Bytes) (conn : ConnectionPtr) :
  L.claim t ≠ some ((r, p), conn)
  := by
  intro ht
  have hmember := h.member.mpr ⟨t, ht⟩
  rw [hnone] at hmember
  cases hmember

theorem claim_eq_none (h : service.Represents L) {t : Bytes}
    (ht : t ∉ service.sessionManager.sessions) :
  L.claim t = none
  := by
  rw [← h.session, AList.lookup_eq_none.mpr ht]
  rfl

/-- The bindings lead to the sessions of the connections. -/
theorem session_of_binding (h : service.Represents L) {c : ConnId} {t : Bytes}
    (hc : service.sessionManager.bindings.lookup c = some t) :
  ∃ session, service.sessionManager.sessions.lookup t = some session
    ∧ session.connection = some c ∧ session.state = .online
  := by
  obtain ⟨seat, ht⟩ := h.binding.mp hc
  obtain ⟨session, hsession, -, hconn⟩ := h.session_of_claim ht
  use session, hsession, hconn
  apply (h.consistent hsession).mpr
  rw [hconn]
  simp

/-- A token is bound to one connection at most. -/
theorem eq_of_binding (h : service.Represents L) {c c' : ConnId} {t : Bytes}
    (hc : service.sessionManager.bindings.lookup c = some t)
    (hc' : service.sessionManager.bindings.lookup c' = some t) :
  c' = c
  := by
  obtain ⟨seat, ht⟩ := h.binding.mp hc
  obtain ⟨seat', ht'⟩ := h.binding.mp hc'
  rw [ht] at ht'
  cases ht'
  rfl

/-- Nothing is bound to a token without a connection. -/
theorem binding_ne (h : service.Represents L) {t : Bytes}
    (ht : ∀ seat c, L.claim t ≠ some (seat, some c)) (c : ConnId) :
  service.sessionManager.bindings.lookup c ≠ some t
  := by
  intro hc
  obtain ⟨seat, hseat⟩ := h.binding.mp hc
  apply ht seat c hseat

theorem offline_connection (h : service.Represents L) {t : Bytes} {session : Session}
    (ht : service.sessionManager.sessions.lookup t = some session)
    (hstate : session.state = .offline) :
  session.connection = none
  := by
  by_contra hconn
  have := (h.consistent ht).mpr hconn
  rw [hstate] at this
  cases this

/-- Rooms and sessions with the same members and claims are in step with the same claims. -/
theorem of_same_members (h : service.Represents L) {roomManager : RoomManager}
    (hvalid : roomManager.Valid)
    (hmember : ∀ r p, (roomManager.member r p).map (fun m => m.connection)
      = (service.roomManager.member r p).map (fun m => m.connection)) :
  Represents { service with roomManager } L
  := by
  refine ⟨hvalid, h.session, h.consistent, h.binding, ?_⟩
  intro r p conn
  rw [hmember]
  apply h.member

end Represents

/-! ### Transactions -/

/-- The members of a room change by one entry. -/
theorem member_setRoom_update {manager : RoomManager} {r : UInt32} {room room' : Room}
    (hroom : manager.rooms.lookup r = some room) {p : UInt64} {entry : Option Room.Member}
    (hentry : ∀ p', room'.members.lookup p'
      = if p' = p then entry else room.members.lookup p') (r' : UInt32) (p' : UInt64) :
  (manager.setRoom r room').member r' p'
    = if (r', p') = (r, p) then entry else manager.member r' p'
  := by
  rw [RoomManager.member_setRoom hroom, hentry]
  simp only [Prod.mk.injEq]
  by_cases hr : r' = r
  · subst hr
    simp only [if_true, true_and, RoomManager.member_eq hroom]
  · simp only [hr, if_false, false_and]

/-- A free connection is bound to a token to which none is. -/
theorem lookup_insert_bound {bindings : UnorderedMap ConnId Bytes} {c : ConnId} {t : Bytes}
    (hc : c ∉ bindings) (ht : ∀ c', bindings.lookup c' ≠ some t) (c' : ConnId) (t' : Bytes) :
  (bindings.insert c t).lookup c' = some t'
    ↔ if t' = t then some c = some c' else bindings.lookup c' = some t'
  := by
  rw [AList.lookup_insert_eq_ite]
  split
  · next hcc =>
    rw [hcc, AList.lookup_eq_none.mpr hc]
    simp [eq_comm]
  · next hcc =>
    split
    · next htt =>
      rw [htt]
      simp [ht c', Ne.symm hcc]
    · rfl

/-- The only connection that is bound to a token is freed. -/
theorem lookup_erase_bound {bindings : UnorderedMap ConnId Bytes} {c : ConnId} {t : Bytes}
    (hc : bindings.lookup c = some t) (ht : ∀ c', bindings.lookup c' = some t → c' = c)
    (c' : ConnId) (t' : Bytes) :
  (bindings.erase c).lookup c' = some t'
    ↔ if t' = t then none = some c' else bindings.lookup c' = some t'
  := by
  rw [AList.lookup_erase_eq_ite]
  split
  · next hcc =>
    rw [hcc, hc]
    simp [eq_comm]
  · next hcc =>
    split
    · next htt =>
      rw [htt]
      simpa using fun h => hcc (ht c' h)
    · rfl

/-- A session opens with a new member. -/
theorem Represents.enrol (h : service.Represents L) {r : UInt32} {room room' : Room}
    (hroom : service.roomManager.rooms.lookup r = some room) (hvalid : room'.Valid)
    (hid : room'.roomId = room.roomId) {p : UInt64} (hp : p ∉ room.members) {name : Bytes}
    {c : ConnId} (hentry : ∀ p', room'.members.lookup p'
      = if p' = p then some ⟨p, name, some c⟩ else room.members.lookup p')
    (hc : c ∉ service.sessionManager.bindings) {t : Bytes}
    (ht : t ∉ service.sessionManager.sessions) :
  ∃ L', L.Step L' ∧ Represents
    ⟨service.roomManager.setRoom r room', { service.sessionManager with
      sessions := service.sessionManager.sessions.insert t (.newOnline r p (some c))
      bindings := service.sessionManager.bindings.insert c t }⟩ L'
  := by
  have hmember := member_setRoom_update hroom hentry
  have hnone : service.roomManager.member r p = none := by
    rw [RoomManager.member_eq hroom]
    apply AList.lookup_eq_none.mpr hp
  have hclaim := h.claim_eq_none ht
  have hseat : L.SeatFree t (r, p) := by
    intro t' conn ht'
    exact absurd ht' (h.not_claimed_of_no_member hnone t' conn)
  have hconn : ∀ x, some c = some x → L.ConnFree x := by
    rintro x ⟨⟩
    apply h.connFree_of_notMem hc
  use L.put t (r, p) (some c) hseat hconn, .enrol hclaim hseat hconn
  constructor
  · apply h.valid.setRoom hroom _ hvalid
    rw [hid, h.valid.key hroom]
  · intro t'
    rw [AList.lookup_insert_eq_ite, Claims.claim_put]
    split
    · rfl
    · apply h.session
  · intro t' session hsession
    rw [AList.lookup_insert_eq_ite] at hsession
    split at hsession
    · cases hsession
      simp [Session.Consistent, Session.newOnline]
    · apply h.consistent hsession
  · intro c' t'
    rw [lookup_insert_bound hc (h.binding_ne (by simp [hclaim])), Claims.claim_put]
    split
    · simp
    · apply h.binding
  · intro r' p' conn
    rw [hmember]
    split
    · next heq =>
      rw [heq, Claims.exists_claim_put]
      simp
    · next hne =>
      rw [L.exists_claim_put_of_ne hseat hconn hne]
      · apply h.member
      · rw [hclaim]
        simp

/-- The connection of a claim changes with that of its session and its member. -/
theorem Represents.reseat (h : service.Represents L) (session' : Session) {t : Bytes}
    {session : Session} (hsession : service.sessionManager.sessions.lookup t = some session)
    {room : Room}
    (hroom : service.roomManager.rooms.lookup session.roomId = some room)
    {member : Room.Member} (hmember : room.members.lookup session.playerId = some member)
    (hseat' : session'.seat = session.seat) (hconsistent : session'.Consistent)
    (hconn : ∀ x, session'.connection = some x → L.ConnFree x)
    {bindings : UnorderedMap ConnId Bytes}
    (hbindings : ∀ c t', bindings.lookup c = some t' ↔
      if t' = t then session'.connection = some c
      else service.sessionManager.bindings.lookup c = some t') :
  Represents
    ⟨service.roomManager.setRoom session.roomId (room.seat member session'.connection),
      { service.sessionManager with
        sessions := service.sessionManager.sessions.assign t session', bindings }⟩
    (L.put t session.seat session'.connection (L.seatFree_of_claim (h.claim_of_session hsession))
      hconn)
  := by
  have hvalid := h.valid.valid hroom
  have hmem := AList.mem_iff_lookup.mpr ⟨session, hsession⟩
  have hclaim := h.claim_of_session hsession
  have hlookup := member_setRoom_update hroom
    (Room.lookup_seat hvalid hmember session'.connection)
  constructor
  · apply h.valid.setRoom hroom _ (hvalid.seat hmember _)
    rw [Room.roomId_seat, h.valid.key hroom]
  · intro t'
    dsimp only
    rw [AList.lookup_assign_of_mem hmem, Claims.claim_put]
    split
    · rw [Option.map_some, Session.claim, hseat']
    · apply h.session
  · intro t' session'' hsession''
    dsimp only at hsession''
    rw [AList.lookup_assign_of_mem hmem] at hsession''
    split at hsession''
    · cases hsession''
      exact hconsistent
    · apply h.consistent hsession''
  · intro c t'
    dsimp only
    rw [hbindings, Claims.claim_put]
    split
    · simp
    · apply h.binding
  · intro r p conn
    dsimp only
    rw [hlookup]
    split
    · next heq =>
      rw [show (r, p) = session.seat from heq, Claims.exists_claim_put]
      simp
    · next hne =>
      have hne' : (r, p) ≠ session.seat := hne
      rw [Claims.exists_claim_put_of_ne _ _ _ hne']
      · apply h.member
      · intro conn' hconn'
        rw [hclaim, Option.some.injEq, Prod.mk.injEq] at hconn'
        apply hne hconn'.1.symm

/-- A session ends with its member. -/
theorem Represents.remove (h : service.Represents L) {t : Bytes} {session : Session}
    (hsession : service.sessionManager.sessions.lookup t = some session) {room : Room}
    (hroom : service.roomManager.rooms.lookup session.roomId = some room)
    {bindings : UnorderedMap ConnId Bytes}
    (hbindings : ∀ c t', bindings.lookup c = some t' ↔
      t' ≠ t ∧ service.sessionManager.bindings.lookup c = some t') :
  Represents
    ⟨service.roomManager.setRoom session.roomId (room.dismiss session.playerId),
      { service.sessionManager with
        sessions := service.sessionManager.sessions.erase t, bindings }⟩
    (L.drop t)
  := by
  have hvalid := h.valid.valid hroom
  have hclaim := h.claim_of_session hsession
  have herase : ∀ p', (room.dismiss session.playerId).members.lookup p'
      = if p' = session.playerId then none else room.members.lookup p' :=
    fun p' => AList.lookup_erase_eq_ite room.members p' session.playerId
  have hlookup := member_setRoom_update hroom herase
  constructor
  · apply h.valid.setRoom hroom _ (hvalid.dismiss _)
    rw [Room.roomId_dismiss, h.valid.key hroom]
  · intro t'
    dsimp only
    rw [AList.lookup_erase_eq_ite, Claims.claim_drop]
    split
    · rfl
    · apply h.session
  · intro t' session' hsession'
    dsimp only at hsession'
    rw [AList.lookup_erase_eq_ite] at hsession'
    split at hsession'
    · cases hsession'
    · apply h.consistent hsession'
  · intro c t'
    dsimp only
    rw [hbindings, Claims.claim_drop]
    split
    · next heq => simp [heq]
    · next hne =>
      rw [h.binding]
      simp [hne]
  · intro r p conn
    dsimp only
    rw [hlookup]
    split
    · next heq =>
      rw [show (r, p) = session.seat from heq]
      simp [L.not_claim_drop hclaim]
    · next hne =>
      rw [L.exists_claim_drop_of_ne hclaim hne]
      apply h.member

end RoomService

end RoomServer
