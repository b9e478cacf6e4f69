import RoomServer.Lib.Transition
import RoomServer.Service.Handlers
import RoomServer.Checkpoint.Restore

/-!
# Runs of the service

The service starts empty.  Rooms are added or restored, tasks are run with any answers of the
connections and any generated tokens, and between two tasks the maps may come in another
order.  In every state so reached the service is `Coherent`: its rooms, its sessions and its
bindings agree.
-/

namespace RoomServer

namespace RoomService

/-! ### The order of the maps -/

/-- The services are the same up to the order of their maps. -/
structure Reordered (service service' : RoomService) : Prop where
  rooms : ∀ r, Option.Rel Room.Reordered (service.roomManager.rooms.lookup r)
    (service'.roomManager.rooms.lookup r)
  sessions : service.sessionManager.sessions.Similar service'.sessionManager.sessions
  bindings : service.sessionManager.bindings.Similar service'.sessionManager.bindings
  reconnectTimeout :
    service'.sessionManager.reconnectTimeout = service.sessionManager.reconnectTimeout

/-! ### The system -/

inductive Action where
  | addRoom (roomId : UInt32) (capacity : UInt64)
  | restore (checkpoint : ServerCheckpoint) (now : Int)
  | task (task : Task) (answers : Answers)
  | reorder

/-- The service with the actions it takes. -/
def system : System RoomService Action where
  Initial service := ∃ reconnectTimeout, service = .new reconnectTimeout
  Step service action service' :=
    match action with
    | .addRoom roomId capacity => service' = (service.addRoom true roomId capacity).2
    | .restore checkpoint now => service.restoreCheckpoint true checkpoint now = (true, service')
    | .task task answers => service' = (service.run answers task).1
    | .reorder => service.Reordered service'

variable {service service' : RoomService} {L : Ledger}

theorem new_represents (reconnectTimeout : Int) :
  (new reconnectTimeout).Represents Claims.empty
  := by
  constructor <;> simp [new, RoomManager.new, SessionManager.new, Claims.empty,
    RoomManager.member]
  constructor <;> simp

theorem Represents.addRoom (hL : service.Represents L) (r : UInt32) (capacity : UInt64) :
  (service.addRoom true r capacity).2.Represents L
  := by
  have hmember := service.roomManager.member_addRoom r capacity
  apply hL.of_same_members (hL.valid.addRoom r capacity)
  intro r' p
  rw [hmember]

/-- The members are the same in any order. -/
theorem Reordered.member (h : service.Reordered service') (r : UInt32) (p : UInt64) :
  service'.roomManager.member r p = service.roomManager.member r p
  := by
  have hrel := h.rooms r
  rw [RoomManager.member, RoomManager.member]
  revert hrel
  cases service.roomManager.rooms.lookup r <;>
    cases service'.roomManager.rooms.lookup r <;> intro hrel
  · rfl
  · cases hrel
  · cases hrel
  · cases hrel with
    | some hrel =>
      obtain ⟨members, players, hm, -, rfl⟩ := hrel
      apply (hm p).symm

theorem Represents.reorder (hL : service.Represents L) (h : service.Reordered service') :
  service'.Represents L
  := by
  constructor
  · constructor
    · intro r room' hr
      obtain ⟨room, hlookup, -, -, -, -, rfl⟩ := Option.exists_left_of_rel (h.rooms r) hr
      rw [← hL.valid.key hlookup]
    · intro r room' hr
      obtain ⟨room, hlookup, hrel⟩ := Option.exists_left_of_rel (h.rooms r) hr
      apply hrel.valid (hL.valid.valid hlookup)
  · intro t
    rw [← h.sessions t]
    apply hL.session
  · intro t session ht
    apply hL.consistent ((h.sessions t).trans ht)
  · intro c t
    rw [← h.bindings c]
    apply hL.binding
  · intro r p conn
    rw [h.member]
    apply hL.member

/-- A restored service is in step with the claims of the sessions of the checkpoint. -/
theorem restoreCheckpoint_represents {inLoop : Bool} {checkpoint : ServerCheckpoint} {now : Int}
    (h : service.restoreCheckpoint inLoop checkpoint now = (true, service')) :
  ∃ L, service'.Represents L
  := by
  obtain ⟨-, -, hsame, roomManager, sessionManager, hrooms, hsessions, rfl⟩ :=
    restoreCheckpoint_eq_true_iff.mp h
  obtain ⟨hbindings, hlookup⟩ := SessionManager.restoreCheckpoint_spec hsessions
  have hacc := SessionManager.restoreCheckpoint_isSome_iff.mp
    (show (SessionManager.restoreCheckpoint _ _ _).isSome by rw [hsessions]; rfl)
  have hinj : ∀ {t t' seat}, (sessionManager.sessions.lookup t).map Session.seat = some seat →
      (sessionManager.sessions.lookup t').map Session.seat = some seat → t = t' := by
    intro t t' seat ht ht'
    obtain ⟨session, hsession, hseat⟩ := Option.map_eq_some_iff.mp ht
    obtain ⟨session', hsession', hseat'⟩ := Option.map_eq_some_iff.mp ht'
    obtain ⟨x, hx, rfl, rfl⟩ := (hlookup t session).mp hsession
    obtain ⟨x', hx', rfl, rfl⟩ := (hlookup t' session').mp hsession'
    have heq := List.inj_on_of_nodup_map hacc.identities_nodup hx hx' (hseat.trans hseat'.symm)
    rw [heq]
  have hoffline : ∀ {t session}, sessionManager.sessions.lookup t = some session →
      session.connection = none ∧ session.state = .offline := by
    intro t session ht
    obtain ⟨x, -, -, rfl⟩ := (hlookup t session).mp ht
    exact ⟨rfl, rfl⟩
  use Claims.ofSeats (fun t => (sessionManager.sessions.lookup t).map Session.seat) hinj
  constructor
  · apply RoomManager.restoreCheckpoint_valid hrooms
  · intro t
    dsimp only [Claims.ofSeats]
    rw [Option.map_map]
    cases ht : sessionManager.sessions.lookup t with
    | none => rfl
    | some session => simp [Session.claim, (hoffline ht).1]
  · intro t session ht
    simp [Session.Consistent, hoffline ht]
  · intro c t
    dsimp only [Claims.ofSeats]
    rw [hbindings]
    simp
  · intro r p conn
    dsimp only [Claims.ofSeats]
    simp only [Option.map_eq_some_iff, RoomManager.member_restoreCheckpoint hrooms, hlookup]
    constructor
    · rintro ⟨_, ⟨room, hroom, hr, m, hm, hp, rfl⟩, rfl⟩
      obtain ⟨session, hsession, rfl, rfl⟩ := (hsame r p).mp ⟨room, hroom, hr, m, hm, hp⟩
      exact ⟨session.token, _, ⟨_, ⟨session, hsession, rfl, rfl⟩, rfl⟩, rfl⟩
    · rintro ⟨t, seat, ⟨_, ⟨session, hsession, -, rfl⟩, rfl⟩, heq⟩
      rw [Prod.mk.injEq, Session.seat, Prod.mk.injEq] at heq
      obtain ⟨⟨rfl, rfl⟩, rfl⟩ := heq
      obtain ⟨room, hroom, hr, m, hm, hp⟩ := (hsame _ _).mpr ⟨session, hsession, rfl, rfl⟩
      exact ⟨_, ⟨room, hroom, hr, m, hm, hp, rfl⟩, rfl⟩

/-- An action keeps the service in step with claims. -/
theorem system_represents {action : Action} (hL : service.Represents L)
    (hstep : system.Step service action service') :
  ∃ L', service'.Represents L'
  := by
  cases action with
  | addRoom r capacity =>
    rw [show service' = _ from hstep]
    exact ⟨L, hL.addRoom r capacity⟩
  | restore checkpoint now => apply restoreCheckpoint_represents hstep
  | task task answers =>
    rw [show service' = _ from hstep]
    apply (run_transacts hL answers task).represents hL
  | reorder => exact ⟨L, hL.reorder hstep⟩

/-- The service is in step with some claims in every state it reaches. -/
theorem represents_of_reachable (h : system.Reachable service) :
  ∃ L, service.Represents L
  := by
  apply h.invariant
  · rintro service ⟨reconnectTimeout, rfl⟩
    exact ⟨_, new_represents reconnectTimeout⟩
  · rintro service action service' ⟨L, hL⟩ - hstep
    apply system_represents hL hstep

/-! ### Coherence -/

/-- The places of the sessions. -/
def sessionSeats (service : RoomService) : List Seat :=
  service.sessionManager.sessions.values.map Session.seat

/-- The places of the members of the rooms. -/
def memberSeats (service : RoomService) : List Seat :=
  service.roomManager.rooms.values.flatMap fun room =>
    room.members.values.map fun member => (room.roomId, member.playerId)

/-- The bindings, the sessions and the members of the rooms agree. -/
structure Coherent (service : RoomService) : Prop where
  /-- A binding leads to an online session on its connection. -/
  bound : ∀ c token, service.sessionManager.bindings.lookup c = some token →
    ∃ session, service.sessionManager.sessions.lookup token = some session
      ∧ session.state = .online ∧ session.connection = some c
  /-- Exactly one binding leads to an online session. -/
  online : ∀ token session, service.sessionManager.sessions.lookup token = some session →
    session.state = .online →
    ∃! c, service.sessionManager.bindings.lookup c = some token
  /-- No two sessions have the same place. -/
  sessions_nodup : service.sessionSeats.Nodup
  /-- No two members have the same place. -/
  members_nodup : service.memberSeats.Nodup
  /-- The places of the sessions are those of the members. -/
  seats : ∀ seat, seat ∈ service.sessionSeats ↔ seat ∈ service.memberSeats
  /-- A session is online on a connection exactly when its member has that connection. -/
  connection : ∀ token session room member,
    service.sessionManager.sessions.lookup token = some session →
    service.roomManager.rooms.lookup session.roomId = some room →
    room.members.lookup session.playerId = some member →
    ∀ c, session.state = .online ∧ session.connection = some c ↔ member.connection = some c
  /-- No two members have the same connection. -/
  members_inj : ∀ r r' p p' member member' c,
    service.roomManager.member r p = some member →
    service.roomManager.member r' p' = some member' →
    member.connection = some c → member'.connection = some c → r = r' ∧ p = p'

theorem mem_sessionSeats (hL : service.Represents L) {seat : Seat} :
  seat ∈ service.sessionSeats ↔ ∃ t conn, L.claim t = some (seat, conn)
  := by
  rw [sessionSeats, List.mem_map]
  constructor
  · rintro ⟨session, hsession, rfl⟩
    obtain ⟨t, ht⟩ := AList.mem_values.mp hsession
    exact ⟨t, _, hL.claim_of_session ht⟩
  · rintro ⟨t, conn, ht⟩
    obtain ⟨session, hsession, hseat, -⟩ := hL.session_of_claim ht
    exact ⟨session, AList.mem_values.mpr ⟨t, hsession⟩, hseat⟩

theorem mem_memberSeats (hvalid : service.roomManager.Valid) {r : UInt32} {p : UInt64} :
  (r, p) ∈ service.memberSeats ↔ ∃ member, service.roomManager.member r p = some member
  := by
  rw [memberSeats, List.mem_flatMap]
  constructor
  · rintro ⟨room, hroom, hmember⟩
    obtain ⟨r', hr'⟩ := AList.mem_values.mp hroom
    obtain ⟨member, hmember, heq⟩ := List.mem_map.mp hmember
    obtain ⟨p', hp'⟩ := AList.mem_values.mp hmember
    rw [Prod.mk.injEq, hvalid.key hr', (hvalid.valid hr').key hp'] at heq
    obtain ⟨rfl, rfl⟩ := heq
    exact ⟨member, RoomManager.member_eq_some_iff.mpr ⟨room, hr', hp'⟩⟩
  · rintro ⟨member, hmember⟩
    obtain ⟨room, hroom, hmember⟩ := RoomManager.member_eq_some_iff.mp hmember
    use room, AList.mem_values.mpr ⟨r, hroom⟩
    apply List.mem_map.mpr
    use member, AList.mem_values.mpr ⟨p, hmember⟩
    rw [hvalid.key hroom, (hvalid.valid hroom).key hmember]

theorem nodup_memberSeats (hvalid : service.roomManager.Valid) :
  service.memberSeats.Nodup
  := by
  rw [memberSeats, List.nodup_flatMap]
  constructor
  · intro room hroom
    obtain ⟨r, hr⟩ := AList.mem_values.mp hroom
    apply AList.nodup_map_values
    intro k k' member member' hk hk' heq
    have hkey := (hvalid.valid hr).key hk
    have hkey' := (hvalid.valid hr).key hk'
    rw [Prod.mk.injEq] at heq
    rw [← hkey, heq.2, hkey']
  · rw [AList.values, List.pairwise_map]
    apply service.roomManager.rooms.nodupKeys.pairwise_ne.imp_of_mem
    intro e e' he he' hne seat hseat hseat'
    obtain ⟨member, -, rfl⟩ := List.mem_map.mp hseat
    obtain ⟨member', -, heq⟩ := List.mem_map.mp hseat'
    rw [Prod.mk.injEq, hvalid.key (AList.mem_lookup_iff.mpr he),
      hvalid.key (AList.mem_lookup_iff.mpr he')] at heq
    apply hne heq.1.symm

/-- A service in step with claims is coherent. -/
theorem Represents.coherent (hL : service.Represents L) :
  service.Coherent
  := by
  constructor
  · intro c token hc
    obtain ⟨session, hsession, hconn, hstate⟩ := hL.session_of_binding hc
    exact ⟨session, hsession, hstate, hconn⟩
  · intro token session hsession hstate
    obtain ⟨c, hconn⟩ := Option.ne_none_iff_exists'.mp ((hL.consistent hsession).mp hstate)
    have hclaim := hL.claim_of_session hsession
    rw [hconn] at hclaim
    have hbinding := hL.binding.mpr ⟨_, hclaim⟩
    use c, hbinding
    intro c' hc'
    apply hL.eq_of_binding hbinding hc'
  · apply AList.nodup_map_values
    intro t t' session session' ht ht' heq
    have hclaim := hL.claim_of_session ht
    have hclaim' := hL.claim_of_session ht'
    rw [heq] at hclaim
    apply L.seat_inj hclaim hclaim'
  · apply nodup_memberSeats hL.valid
  · rintro ⟨r, p⟩
    rw [mem_sessionSeats hL, mem_memberSeats hL.valid]
    constructor
    · rintro ⟨t, conn, ht⟩
      obtain ⟨member, hmember, -⟩ := Option.map_eq_some_iff.mp (hL.member.mpr ⟨t, ht⟩)
      exact ⟨member, hmember⟩
    · rintro ⟨member, hmember⟩
      obtain ⟨t, ht⟩ := hL.member.mp (show _ = some member.connection by rw [hmember]; rfl)
      exact ⟨t, _, ht⟩
  · intro token session room member hsession hroom hmember c
    have hclaim := hL.claim_of_session hsession
    obtain ⟨room', member', hroom', hmember', hconn⟩ := hL.member_of_claim hclaim
    rw [hroom] at hroom'
    cases hroom'
    rw [hmember] at hmember'
    cases hmember'
    rw [hconn]
    constructor
    · apply And.right
    · intro hc
      refine ⟨(hL.consistent hsession).mpr ?_, hc⟩
      rw [hc]
      simp
  · intro r r' p p' member member' c hmember hmember' hc hc'
    obtain ⟨t, ht⟩ := hL.member.mp (show _ = some (some c) by rw [hmember, ← hc]; rfl)
    obtain ⟨t', ht'⟩ := hL.member.mp (show _ = some (some c) by rw [hmember', ← hc']; rfl)
    have htt := L.conn_inj ht ht'
    subst htt
    rw [ht] at ht'
    cases ht'
    exact ⟨rfl, rfl⟩

/-- In every state the service reaches, its rooms, its sessions and its bindings agree. -/
theorem coherent_of_reachable (h : system.Reachable service) :
  service.Coherent
  := by
  obtain ⟨L, hL⟩ := represents_of_reachable h
  apply hL.coherent

/-- The service after a player named `A` has joined a room for two on the connection 7. -/
def joined : RoomService :=
  (((new 30000).addRoom true 1 2).2.run ⟨fun _ _ _ => true, fun _ _ => false⟩
    (.frame (some 7) MessageType.join.toU16 [0, 0, 0, 1, 0, 1, 65] [1] 0)).1

theorem joined_reachable :
  system.Reachable joined
  := by
  apply System.ReachableBy.step (ℓ := .task _ _) _ trivial rfl
  apply System.ReachableBy.step (ℓ := .addRoom 1 2) _ trivial rfl
  exact .initial ⟨30000, rfl⟩

theorem joined_coherent :
  joined.sessionManager.bindings.lookup 7 = some [1] ∧ joined.Coherent
  := ⟨by decide +kernel, coherent_of_reachable joined_reachable⟩

end RoomService

end RoomServer
