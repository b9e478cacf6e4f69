import RoomServer.Net.Requests
import RoomServer.Service.Offers

/-!
# Sessions that expire

`handleSessionTimeouts` removes the players whose sessions have been offline for too long, and
tells the members of their rooms.  What a sequence of removals does is determined by the
sessions that are left: `Departs` says that the rooms and what is offered follow from them.
The sessions that are left are those whose deadline has not passed, which are also those that
can be resumed.
-/

namespace RoomServer

/-- The session waits no longer to be resumed. -/
def Session.Gone (session : Session) (now : Int) : Prop :=
  session.state = .offline ∧ session.offlineDeadline ≤ now

/-- The frame that tells that a player has left a room. -/
def playerLeftFrame (seat : Seat) : Frame :=
  ⟨MessageType.playerLeft.toU16, Protocol.appendU32 seat.1 ++ Protocol.appendU64 seat.2⟩

variable {c : ConnId} {f : Frame} {es es' : List Event} {seat seat' : Seat}

theorem playerLeftFrame_fits (seat : Seat) :
  Codec.Fits (playerLeftFrame seat)
  := by
  rw [Codec.Fits, playerLeftFrame, List.length_append, Protocol.length_appendU32,
    Protocol.length_appendU64]
  decide

theorem playerLeftFrame_inj (h : playerLeftFrame seat = playerLeftFrame seat') :
  seat = seat'
  := by
  have hparse := Protocol.parsePlayerLeft_append seat.1 seat.2
  rw [show Protocol.appendU32 seat.1 ++ Protocol.appendU64 seat.2
    = Protocol.appendU32 seat'.1 ++ Protocol.appendU64 seat'.2 from congrArg Frame.payload h,
    Protocol.parsePlayerLeft_append] at hparse
  apply (Option.some.inj hparse).symm

/-- A connection that is listed once is offered the frame once. -/
theorem Broadcast.offeredTo_of_mem {connections : List ConnectionPtr}
    (h : Broadcast f connections es) (hfits : Codec.Fits f) (hnodup : connections.Nodup)
    (hmem : some c ∈ connections) :
  offeredTo c es = [f]
  := by
  induction h with
  | nil => cases hmem
  | null _ ih => apply ih (List.nodup_cons.mp hnodup).2 (by simpa using hmem)
  | @cons c' connections es es' hsent hrest ih =>
    obtain ⟨hnew, hnodup⟩ := List.nodup_cons.mp hnodup
    rw [offeredTo_append]
    rcases List.mem_cons.mp hmem with heq | hmem
    · cases heq
      rw [hsent.offeredTo_self hfits]
      have hnone : offeredTo c es' = [] := by
        apply List.eq_nil_iff_forall_not_mem.mpr
        exact fun g hg => hnew (hrest.mem_offeredTo hg).2
      rw [hnone, List.append_nil]
    · have hne : c' ≠ c := by
        rintro rfl
        apply hnew hmem
      rw [hsent.offeredTo_other hne, ih hnodup hmem, List.nil_append]

theorem Broadcast.offeredTo_of_notMem {connections : List ConnectionPtr}
    (h : Broadcast f connections es) (hmem : some c ∉ connections) :
  offeredTo c es = []
  := by
  apply List.eq_nil_iff_forall_not_mem.mpr
  exact fun g hg => hmem (h.mem_offeredTo hg).2

namespace RoomService

variable {service service' service₂ : RoomService} {L : Ledger} {now : Int} {r : UInt32}
  {room room' : Room} {token : Bytes} {session : Session}

/-! ### Removals -/

/-- The session of the place has ended. -/
def Departed (service service' : RoomService) (seat : Seat) : Prop :=
  ∃ token session, service.sessionManager.sessions.lookup token = some session
    ∧ token ∉ service'.sessionManager.sessions ∧ session.seat = seat

/-- The room without the members and players that satisfy `gone`. -/
structure Without (gone : UInt64 → Prop) (room room' : Room) : Prop where
  rest : room' = { room with members := room'.members, gameState := room'.gameState }
  members : ∀ p member, room'.members.lookup p = some member
    ↔ room.members.lookup p = some member ∧ ¬gone p
  players : ∀ p state, room'.gameState.players.lookup p = some state
    ↔ room.gameState.players.lookup p = some state ∧ ¬gone p

/-- Sessions end, with their members; whoever is bound to a member of the room of one that ended
is told of it once. -/
structure Departs (service service' : RoomService) (es : List Event) : Prop where
  sessions : ∀ t session, service'.sessionManager.sessions.lookup t = some session →
    service.sessionManager.sessions.lookup t = some session
  bindings : service'.sessionManager.bindings = service.sessionManager.bindings
  reconnectTimeout :
    service'.sessionManager.reconnectTimeout = service.sessionManager.reconnectTimeout
  rooms : ∀ r, Option.Rel (Without fun p => Departed service service' (r, p))
    (service.roomManager.rooms.lookup r) (service'.roomManager.rooms.lookup r)
  told : ∀ c r p q, service.seatOf c = some (r, q) → Departed service service' (r, p) →
    (offeredTo c es).count (playerLeftFrame (r, p)) = 1
  only : ∀ c, ∀ f ∈ offeredTo c es, ∃ r p q, f = playerLeftFrame (r, p)
    ∧ Departed service service' (r, p) ∧ service.seatOf c = some (r, q)

theorem Without.refl {gone : UInt64 → Prop} (h : ∀ p, ¬gone p) (room : Room) :
  Without gone room room
  := by
  constructor
  · rfl
  · simp [h]
  · simp [h]

theorem Without.trans {gone gone' gone'' : UInt64 → Prop} {room'' : Room}
    (h : Without gone room room') (h' : Without gone' room' room'')
    (hgone : ∀ p, gone'' p ↔ gone p ∨ gone' p) :
  Without gone'' room room''
  := by
  constructor
  · rw [h'.rest, h.rest]
  · intro p member
    rw [h'.members, h.members, hgone, not_or, and_assoc]
  · intro p state
    rw [h'.players, h.players, hgone, not_or, and_assoc]

/-- A room without one of its members. -/
theorem without_dismiss (hvalid : room.Valid) (p : UInt64) :
  Without (fun p' => p' = p) room (room.dismiss p)
  := by
  constructor
  · rfl
  · intro p' member
    rw [Room.dismiss, AList.lookup_erase_eq_ite]
    split
    · next heq => simp [heq]
    · next hne => simp [hne]
  · intro p' state
    rw [Room.dismiss]
    split
    · next hwaiting =>
      have hnone : room.gameState.players.lookup p' = none :=
        AList.lookup_eq_none.mpr (hvalid.game_empty hwaiting)
      simp [hnone]
    · dsimp only
      rw [AList.lookup_erase_eq_ite]
      split
      · next heq => simp [heq]
      · next hne => simp [hne]

/-- A session ends first, and then others. -/
theorem departed_removed_iff (hL : service.Represents L)
    (hsession : service.sessionManager.sessions.lookup token = some session)
    (hsub : ∀ t session', service'.sessionManager.sessions.lookup t = some session' →
      (service.removed token session room).sessionManager.sessions.lookup t = some session') :
  (Departed service service' seat
      ↔ seat = session.seat ∨ Departed (service.removed token session room) service' seat)
    ∧ ¬Departed (service.removed token session room) service' session.seat
  := by
  have herase : ∀ t, (service.removed token session room).sessionManager.sessions.lookup t
      = if t = token then none else service.sessionManager.sessions.lookup t :=
    fun t => AList.lookup_erase_eq_ite service.sessionManager.sessions t token
  have hended : token ∉ service'.sessionManager.sessions := by
    intro hmem
    obtain ⟨session', hsession'⟩ := AList.mem_iff_lookup.mp hmem
    have hlookup := hsub token session' hsession'
    rw [herase, if_pos rfl] at hlookup
    cases hlookup
  constructor
  · constructor
    · rintro ⟨t, session', hsession', hgone, hseat⟩
      by_cases ht : t = token
      · subst ht
        rw [hsession, Option.some.injEq] at hsession'
        exact .inl (hsession' ▸ hseat.symm)
      · right
        refine ⟨t, session', ?_, hgone, hseat⟩
        rw [herase, if_neg ht, hsession']
    · rintro (rfl | ⟨t, session', hsession', hgone, hseat⟩)
      · exact ⟨token, session, hsession, hended, rfl⟩
      · rw [herase, Option.ite_none_left_eq_some] at hsession'
        exact ⟨t, session', hsession'.2, hgone, hseat⟩
  · rintro ⟨t, session', hsession', hgone, hseat⟩
    rw [herase, Option.ite_none_left_eq_some] at hsession'
    have hclaim := hL.claim_of_session hsession'.2
    rw [hseat] at hclaim
    apply hsession'.1 (L.seat_inj hclaim (hL.claim_of_session hsession))

/-- The members of the room of a player that is removed are told of it once. -/
theorem removed_offers (hL : service.Represents L)
    (hsession : service.sessionManager.sessions.lookup token = some session)
    (hoffline : session.state = .offline)
    (hroom : service.roomManager.rooms.lookup session.roomId = some room)
    (hes : Broadcast (playerLeftFrame session.seat)
      ((room.dismiss session.playerId).connections 0) es) (c : ConnId) :
  ((∃ q, service.seatOf c = some (session.roomId, q))
      ∧ offeredTo c es = [playerLeftFrame session.seat])
    ∨ (∀ q, service.seatOf c ≠ some (session.roomId, q)) ∧ offeredTo c es = []
  := by
  have hL' := removed_represents hL hsession hoffline hroom
  have hlookup : (service.removed token session room).roomManager.rooms.lookup session.roomId
      = some (room.dismiss session.playerId) := by
    rw [removed, RoomManager.lookup_setRoom hroom, if_pos rfl]
  have hlisted := listed_iff (c := c) hL' hlookup
  simp only [seatOf_removed hL hsession hoffline room c] at hlisted
  by_cases hmem : some c ∈ (room.dismiss session.playerId).connections 0
  · left
    use hlisted.mp hmem
    apply hes.offeredTo_of_mem (playerLeftFrame_fits _) _ hmem
    apply Room.nodup_connections
    intro k k' member member' c'
    apply members_inj hL' hlookup
  · right
    refine ⟨?_, hes.offeredTo_of_notMem hmem⟩
    intro q hq
    apply hmem (hlisted.mpr ⟨q, hq⟩)

/-- A player whose session ends leaves its room, and others leave theirs afterwards. -/
theorem Departs.rooms_cons (hL : service.Represents L)
    (hsession : service.sessionManager.sessions.lookup token = some session)
    (hroom : service.roomManager.rooms.lookup session.roomId = some room)
    (h : Departs (service.removed token session room) service' es) (r : UInt32) :
  Option.Rel (Without fun p => Departed service service' (r, p))
    (service.roomManager.rooms.lookup r) (service'.roomManager.rooms.lookup r)
  := by
  have hdeparted : ∀ p, Departed service service' (r, p)
      ↔ (r, p) = session.seat ∨ Departed (service.removed token session room) service' (r, p) :=
    fun _ => (departed_removed_iff hL hsession h.sessions).1
  have hrest := h.rooms r
  have hremoved : (service.removed token session room).roomManager.rooms.lookup r
      = if r = session.roomId then some (room.dismiss session.playerId)
        else service.roomManager.rooms.lookup r :=
    RoomManager.lookup_setRoom hroom _ r
  rw [hremoved] at hrest
  by_cases hr : r = session.roomId
  · subst hr
    obtain ⟨room', hlookup, hwithout⟩ := Option.exists_right_of_rel hrest (if_pos rfl)
    rw [hroom, hlookup]
    apply Option.Rel.some
    apply (without_dismiss (hL.valid.valid hroom) session.playerId).trans hwithout
    intro p
    rw [hdeparted, Session.seat, Prod.mk.injEq, eq_self, true_and]
  · rw [if_neg hr] at hrest
    have hsame : (fun p => Departed service service' (r, p))
        = fun p => Departed (service.removed token session room) service' (r, p) := by
      funext p
      apply propext
      rw [hdeparted, Session.seat, Prod.mk.injEq]
      simp [hr]
    rw [hsame]
    exact hrest

/-- A connection is told once of each player that leaves its room, whether it is the first one or
a later one. -/
theorem Departs.told_cons (hL : service.Represents L)
    (hsession : service.sessionManager.sessions.lookup token = some session)
    (hoffline : session.state = .offline)
    (hroom : service.roomManager.rooms.lookup session.roomId = some room)
    (hes : Broadcast (playerLeftFrame session.seat)
      ((room.dismiss session.playerId).connections 0) es)
    (h : Departs (service.removed token session room) service' es') {c : ConnId} {r : UInt32}
    {p q : UInt64} (hc : service.seatOf c = some (r, q))
    (hgone : Departed service service' (r, p)) :
  (offeredTo c (es ++ es')).count (playerLeftFrame (r, p)) = 1
  := by
  obtain ⟨hdeparted, hnot⟩ : (Departed service service' (r, p) ↔ (r, p) = session.seat
        ∨ Departed (service.removed token session room) service' (r, p))
      ∧ ¬Departed (service.removed token session room) service' session.seat :=
    departed_removed_iff hL hsession h.sessions
  rw [offeredTo_append, List.count_append]
  rcases hdeparted.mp hgone with heq | hgone'
  · -- The later frames are about other players.
    have hlater : playerLeftFrame (r, p) ∉ offeredTo c es' := by
      intro hf
      obtain ⟨r', p', -, hframe, hgone', -⟩ := h.only c _ hf
      rw [← playerLeftFrame_inj hframe, heq] at hgone'
      apply hnot hgone'
    obtain ⟨-, hone⟩ | ⟨hnone, -⟩ := removed_offers hL hsession hoffline hroom hes c
    · rw [List.count_eq_zero.mpr hlater, hone, heq, List.count_singleton_self]
    · rw [Session.seat, Prod.mk.injEq] at heq
      rw [heq.1] at hc
      exact absurd hc (hnone q)
  · -- The first frame, if there is one, is about another player.
    have hfirst : playerLeftFrame (r, p) ∉ offeredTo c es := by
      intro hf
      have hframe := (hes.mem_offeredTo hf).1
      rw [playerLeftFrame_inj hframe] at hgone'
      apply hnot hgone'
    rw [← seatOf_removed hL hsession hoffline room] at hc
    rw [List.count_eq_zero.mpr hfirst, h.told c r p q hc hgone', Nat.zero_add]

/-- One removal, and then others. -/
theorem Departs.cons (hL : service.Represents L)
    (hsession : service.sessionManager.sessions.lookup token = some session)
    (hoffline : session.state = .offline)
    (hroom : service.roomManager.rooms.lookup session.roomId = some room)
    (hes : Broadcast (playerLeftFrame session.seat)
      ((room.dismiss session.playerId).connections 0) es)
    (h : Departs (service.removed token session room) service' es') :
  Departs service service' (es ++ es')
  := by
  have hdeparted : ∀ seat, Departed service service' seat
      ↔ seat = session.seat ∨ Departed (service.removed token session room) service' seat :=
    fun _ => (departed_removed_iff hL hsession h.sessions).1
  constructor
  case sessions =>
    intro t session' hsession'
    have hlookup := h.sessions t session' hsession'
    dsimp only [removed] at hlookup
    rw [AList.lookup_erase_eq_ite, Option.ite_none_left_eq_some] at hlookup
    apply hlookup.2
  case bindings => apply h.bindings
  case reconnectTimeout => apply h.reconnectTimeout
  case rooms => apply h.rooms_cons hL hsession hroom
  case told => exact fun _ _ _ _ => h.told_cons hL hsession hoffline hroom hes
  case only =>
    intro c f hf
    rw [offeredTo_append] at hf
    rcases List.mem_append.mp hf with hf | hf
    · rcases removed_offers hL hsession hoffline hroom hes c with ⟨⟨q, hq⟩, hone⟩ | ⟨-, hnone⟩
      · rw [hone, List.mem_singleton] at hf
        exact ⟨_, _, q, hf, (hdeparted _).mpr (.inl rfl), hq⟩
      · rw [hnone] at hf
        cases hf
    · obtain ⟨r, p, q, hframe, hgone, hq⟩ := h.only c f hf
      rw [seatOf_removed hL hsession hoffline room] at hq
      exact ⟨r, p, q, hframe, (hdeparted _).mpr (.inr hgone), hq⟩

/-- There is a session at the place that is gone. -/
def Leaves (service : RoomService) (now : Int) (seat : Seat) : Prop :=
  ∃ token session, service.sessionManager.sessions.lookup token = some session
    ∧ session.Gone now ∧ session.seat = seat

/-- What timeouts do: the sessions that are gone end with their members, nothing else changes, and
whoever is bound to a member of the room of one that is gone is told of it once. -/
structure Expires (service : RoomService) (now : Int) (service' : RoomService)
    (es : List Event) : Prop where
  sessions : ∀ t session, service'.sessionManager.sessions.lookup t = some session
    ↔ service.sessionManager.sessions.lookup t = some session ∧ ¬session.Gone now
  bindings : service'.sessionManager.bindings = service.sessionManager.bindings
  reconnectTimeout :
    service'.sessionManager.reconnectTimeout = service.sessionManager.reconnectTimeout
  rooms : ∀ r, Option.Rel (Without fun p => service.Leaves now (r, p))
    (service.roomManager.rooms.lookup r) (service'.roomManager.rooms.lookup r)
  told : ∀ c r p q, service.seatOf c = some (r, q) → service.Leaves now (r, p) →
    (offeredTo c es).count (playerLeftFrame (r, p)) = 1
  only : ∀ c, ∀ f ∈ offeredTo c es, ∃ r p q, f = playerLeftFrame (r, p)
    ∧ service.Leaves now (r, p) ∧ service.seatOf c = some (r, q)

theorem Without.reordered {gone : UInt64 → Prop} {room₂ room₂' : Room} (h : Without gone room room')
    (h₂ : Without gone room₂ room₂') (hrooms : room.Reordered room₂) :
  room'.Reordered room₂'
  := by
  obtain ⟨members, players, hmembers, hplayers, rfl⟩ := hrooms
  use room₂'.members, room₂'.gameState.players
  refine ⟨?_, ?_, ?_⟩
  · intro p
    apply Option.ext
    intro member
    rw [h.members, h₂.members, hmembers p]
  · intro p
    apply Option.ext
    intro state
    rw [h.players, h₂.players, hplayers p]
  · rw [h₂.rest, h.rest]

theorem rel_reordered_of_without {gone : UInt64 → Prop} {x x' y y' : Option Room}
    (hx : Option.Rel (Without gone) x x') (hy : Option.Rel (Without gone) y y')
    (h : Option.Rel Room.Reordered x y) :
  Option.Rel Room.Reordered x' y'
  := by
  cases h with
  | none =>
    cases hx
    cases hy
    exact .none
  | some hrooms =>
    cases hx with
    | some hwithout =>
      cases hy with
      | some hwithout' => exact .some (hwithout.reordered hwithout' hrooms)

theorem Reordered.seatOf (h : service.Reordered service₂) (c : ConnId) :
  service₂.seatOf c = service.seatOf c
  := by
  apply seatOf_congr
  · apply (h.bindings c).symm
  · intro t _
    rw [h.sessions t]

/-- What timeouts do does not depend on the order of the maps, up to the order of the frames. -/
theorem Expires.reordered {service₂' : RoomService} {es₂ : List Event}
    (h : Expires service now service' es) (h₂ : Expires service₂ now service₂' es₂)
    (hreordered : service.Reordered service₂) :
  service'.Reordered service₂' ∧ ∀ c, (offeredTo c es).Perm (offeredTo c es₂)
  := by
  have hleaves : service₂.Leaves now = service.Leaves now := by
    funext seat
    simp only [Leaves, hreordered.sessions _]
  constructor
  · constructor
    · intro r
      have hroom₂ := h₂.rooms r
      rw [hleaves] at hroom₂
      apply rel_reordered_of_without (h.rooms r) hroom₂ (hreordered.rooms r)
    · intro t
      apply Option.ext
      intro session
      rw [h.sessions, h₂.sessions, hreordered.sessions t]
    · rw [h.bindings, h₂.bindings]
      apply hreordered.bindings
    · rw [h.reconnectTimeout, h₂.reconnectTimeout]
      apply hreordered.reconnectTimeout
  · intro c
    apply List.perm_iff_count.mpr
    intro f
    by_cases hf : f ∈ offeredTo c es
    · obtain ⟨r, p, q, rfl, hgone, hc⟩ := h.only c f hf
      rw [h.told c r p q hc hgone]
      rw [← hleaves] at hgone
      rw [← hreordered.seatOf] at hc
      rw [h₂.told c r p q hc hgone]
    · rw [List.count_eq_zero.mpr hf, eq_comm, List.count_eq_zero]
      intro hf₂
      obtain ⟨r, p, q, rfl, hgone, hc⟩ := h₂.only c f hf₂
      rw [hleaves] at hgone
      rw [hreordered.seatOf] at hc
      have hone := h.told c r p q hc hgone
      rw [List.count_eq_zero.mpr hf] at hone
      cases hone

/-! ### Tokens -/

end RoomService

end RoomServer
