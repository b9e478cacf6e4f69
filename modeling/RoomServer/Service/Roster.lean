import RoomServer.Service.Runs

/-!
# The rosters of the clients

A client that was told the members of its room when it joined or resumed, and then every
member that came or went, knows the members of the room.  `Replica` is what such a client makes
of the frames its connection accepts; it gives up when the connection refuses a frame or is no
longer bound to a player, and it breaks when it is told of a member it already has, or of the
loss of one it has not.

A replica never breaks, and between two tasks a replica that is not given up holds exactly the
members of the room.
-/

namespace RoomServer

/-! ### Replicas -/

/-- What a client knows about the members of its room. -/
inductive Replica where
  | untracked
  | tracking (r : UInt32) (table : UnorderedMap UInt64 Bytes)
  | broken
  deriving DecidableEq

namespace Replica

/-- Give up. -/
def forget : Replica → Replica
  | broken => broken
  | _ => untracked

/-- Start with the given members. -/
def track (r : UInt32) (members : List MemberInfo) : Replica :=
  match AList.enter (fun member => member.playerId) (fun member => some member.playerName)
      members ∅ with
  | none => broken
  | some table => tracking r table

/-- A member comes to the room. -/
def add (r : UInt32) (member : MemberInfo) : Replica → Replica
  | tracking r' table =>
    if r' ≠ r then
      tracking r' table
    else if member.playerId ∈ table then
      broken
    else
      tracking r' (table.insert member.playerId member.playerName)
  | replica => replica

/-- A member leaves the room. -/
def remove (r : UInt32) (p : UInt64) : Replica → Replica
  | tracking r' table =>
    if r' ≠ r then
      tracking r' table
    else if p ∉ table then
      broken
    else
      tracking r' (table.erase p)
  | replica => replica

/-- What a client that asked for `name` makes of a frame. -/
def receive (name : Bytes) (replica : Replica) (f : Frame) : Replica :=
  match replica with
  | broken => broken
  | replica =>
    match MessageType.ofU16 f.type with
    | some .joinOk =>
      match Protocol.parseJoinOk f.payload with
      | none => broken
      | some (r, p, _, members) => track r (members ++ [⟨p, name⟩])
    | some .resumeOk =>
      match Protocol.parseResumeOk f.payload with
      | none => broken
      | some (r, _, members) => track r members
    | some .playerJoined =>
      match Protocol.parsePlayerJoined f.payload with
      | none => broken
      | some (r, member) => replica.add r member
    | some .playerLeft =>
      match Protocol.parsePlayerLeft f.payload with
      | none => broken
      | some (r, p) => replica.remove r p
    | _ => replica

/-- What the client of the connection makes of an event. -/
def observe (name : Bytes) (c : ConnId) (replica : Replica) : Event → Replica
  | .sent c' frame accepted =>
    if c' ≠ c then
      replica
    else if accepted then
      (Codec.readFrames frame).frames.foldl (receive name) replica
    else
      replica.forget
  | _ => replica

/-- What the client of the connection makes of the events of a task. -/
def observeAll (name : Bytes) (c : ConnId) (replica : Replica) (es : List Event) : Replica :=
  es.foldl (observe name c) replica

variable (name : Bytes) {c : ConnId} (replica : Replica)

theorem observeAll_append (c : ConnId) (es es' : List Event) :
  replica.observeAll name c (es ++ es') = (replica.observeAll name c es).observeAll name c es'
  := List.foldl_append

theorem forget_forget :
  replica.forget.forget = replica.forget
  := by
  cases replica <;> rfl

theorem receive_quiet {f : Frame} (h : ∀ type ∈ rosterTypes, f.type ≠ type.toU16) :
  replica.receive name f = replica
  := by
  have hof : ∀ type, MessageType.ofU16 f.type = some type → type ∉ rosterTypes := by
    intro type heq hmem
    apply h type hmem (MessageType.toU16_of_ofU16 heq)
  rw [receive.eq_def]
  split
  · rfl
  · split
    · next heq => exact absurd (by decide) (hof _ heq)
    · next heq => exact absurd (by decide) (hof _ heq)
    · next heq => exact absurd (by decide) (hof _ heq)
    · next heq => exact absurd (by decide) (hof _ heq)
    · rfl

theorem foldl_receive_quiet {fs : List Frame}
    (h : ∀ f ∈ fs, ∀ type ∈ rosterTypes, f.type ≠ type.toU16) :
  fs.foldl (receive name) replica = replica
  := by
  induction fs with
  | nil => rfl
  | cons f fs ih =>
    rw [List.foldl_cons, receive_quiet name replica (h f List.mem_cons_self)]
    apply ih fun g hg => h g (List.mem_cons_of_mem f hg)

theorem observe_quiet {e : Event} (h : e.Quiet) :
  replica.observe name c e = replica ∨ replica.observe name c e = replica.forget
  := by
  cases e with
  | sent c' frame accepted =>
    rw [observe]
    split
    · exact .inl rfl
    · split
      · exact .inl (foldl_receive_quiet name replica h)
      · exact .inr rfl
  | skipped c' => exact .inl rfl
  | closeRequested c' => exact .inl rfl

/-- Quiet events change nothing but for a refusal. -/
theorem observeAll_quiet {es : List Event} (h : Quiet es) :
  replica.observeAll name c es = replica ∨ replica.observeAll name c es = replica.forget
  := by
  induction es generalizing replica with
  | nil => exact .inl rfl
  | cons e es ih =>
    have hes : Quiet es := fun e' he' => h e' (List.mem_cons_of_mem e he')
    rw [observeAll, List.foldl_cons]
    rcases observe_quiet name (c := c) replica (h e List.mem_cons_self) with heq | heq
    · rw [heq]
      apply ih replica hes
    · rw [heq]
      right
      rcases ih replica.forget hes with hrest | hrest
      · exact hrest
      · rw [forget_forget] at hrest
        exact hrest

/-- Frames to other connections are not observed. -/
theorem observeAll_sentTo_other {c' : ConnId} (hc : c' ≠ c) {f : Frame} {es : List Event}
    (h : SentTo c' f es) :
  replica.observeAll name c es = replica
  := by
  cases h <;> simp [observeAll, observe, hc]

theorem observeAll_sentTo {f : Frame} {es : List Event} (h : SentTo c f es) :
  ¬Codec.Fits f ∧ replica.observeAll name c es = replica
    ∨ replica.observeAll name c es = replica.receive name f
    ∨ replica.observeAll name c es = replica.forget
  := by
  cases h with
  | unfit hfits => exact .inl ⟨hfits, rfl⟩
  | accepted hfits =>
    right; left
    simp [observeAll, observe, readFrames_frameBytes hfits]
  | refused =>
    right; right
    simp [observeAll, observe]

theorem observeAll_broadcast_other {f : Frame} {connections : List ConnectionPtr}
    {es : List Event} (h : Broadcast f connections es) (hc : some c ∉ connections) :
  replica.observeAll name c es = replica
  := by
  induction h with
  | nil => rfl
  | null _ ih => apply ih fun h => hc (List.mem_cons_of_mem none h)
  | @cons c' connections es es' hsent _ ih =>
    have hne : c' ≠ c := by
      rintro rfl
      apply hc List.mem_cons_self
    rw [observeAll_append, observeAll_sentTo_other name replica hne hsent]
    apply ih fun h => hc (List.mem_cons_of_mem _ h)

/-- A frame sent to connections that are all different is observed once by each of them. -/
theorem observeAll_broadcast {f : Frame} (hfits : Codec.Fits f)
    {connections : List ConnectionPtr} {es : List Event} (h : Broadcast f connections es)
    (hnodup : connections.Nodup) (hc : some c ∈ connections) :
  replica.observeAll name c es = replica.receive name f
    ∨ replica.observeAll name c es = replica.forget
  := by
  induction h with
  | nil => cases hc
  | null _ ih =>
    rw [List.nodup_cons] at hnodup
    apply ih hnodup.2
    rcases List.mem_cons.mp hc with h | h
    · cases h
    · exact h
  | @cons c' connections es es' hsent hrest ih =>
    rw [List.nodup_cons] at hnodup
    rw [observeAll_append]
    by_cases heq : c' = c
    · subst heq
      rw [observeAll_broadcast_other name _ hrest hnodup.1]
      rcases observeAll_sentTo name replica hsent with h | h
      · exact absurd hfits h.1
      · exact h
    · rw [observeAll_sentTo_other name replica heq hsent]
      apply ih hnodup.2
      rcases List.mem_cons.mp hc with h | h
      · cases h
        exact absurd rfl heq
      · exact h

/-- A list of members that are all different is tracked. -/
theorem track_spec (r : UInt32) {members : List MemberInfo}
    (hnodup : (members.map fun member => member.playerId).Nodup) :
  ∃ table, track r members = tracking r table
    ∧ ∀ p x, table.lookup p = some x ↔ ⟨p, x⟩ ∈ members
  := by
  have hsome : (AList.enter (fun member => member.playerId)
      (fun member => some member.playerName) members ∅).isSome :=
    AList.enter_isSome_iff.mpr ⟨hnodup, by simp, by simp⟩
  obtain ⟨table, htable⟩ := Option.isSome_iff_exists.mp hsome
  use table
  rw [track, htable]
  use rfl
  intro p x
  rw [AList.lookup_enter htable]
  simp only [AList.lookup_empty, reduceCtorEq, false_or, Option.some.injEq]
  constructor
  · rintro ⟨member, hmem, rfl, rfl⟩
    exact hmem
  · intro hmem
    exact ⟨_, hmem, rfl, rfl⟩

end Replica

namespace RoomService

variable {service service' : RoomService} {L : Ledger} {name fresh : Bytes} {es : List Event}
  {c : ConnId} {r r' : UInt32} {replica : Replica}

/-! ### What the replicas follow -/

/-- The connection is bound to a player of the room. -/
def Holds (service : RoomService) (c : ConnId) (r : UInt32) : Prop :=
  ∃ token session, service.sessionManager.bindings.lookup c = some token
    ∧ service.sessionManager.sessions.lookup token = some session ∧ session.roomId = r

/-- The name of the member `p` of the room `r`. -/
def nameOf (service : RoomService) (r : UInt32) (p : UInt64) : Option Bytes :=
  (service.roomManager.member r p).map fun member => member.playerName

/-- The replica is given up, or it is that of the room the connection is bound to and holds
exactly the members of this room. -/
def Follows (service : RoomService) (c : ConnId) : Replica → Prop
  | .untracked => True
  | .tracking r table => service.Holds c r ∧ ∀ p, table.lookup p = service.nameOf r p
  | .broken => False

theorem Holds.mem (h : service.Holds c r) : c ∈ service.sessionManager.bindings := by
  obtain ⟨token, -, hbinding, -⟩ := h
  apply AList.mem_iff_lookup.mpr ⟨token, hbinding⟩

theorem Follows.forget (h : service.Follows c replica) :
  service'.Follows c replica.forget
  := by
  cases replica with
  | untracked => trivial
  | tracking => trivial
  | broken => exact h

theorem Follows.ne_broken (h : service.Follows c replica) : replica ≠ .broken := by
  rintro rfl
  exact h

/-- The replica of an unbound connection is given up. -/
theorem Follows.of_unbound (h : service.Follows c replica)
    (hc : c ∉ service.sessionManager.bindings) :
  replica = .untracked
  := by
  cases replica with
  | untracked => rfl
  | tracking => exact absurd h.1.mem hc
  | broken => cases h

theorem Follows.mono (h : service.Follows c replica)
    (hholds : ∀ r, service.Holds c r → service'.Holds c r)
    (hname : ∀ r p, service.Holds c r → service'.nameOf r p = service.nameOf r p) :
  service'.Follows c replica
  := by
  cases replica with
  | untracked => trivial
  | broken => cases h
  | tracking r table =>
    use hholds r h.1
    intro p
    rw [hname r p h.1]
    apply h.2 p

/-- Quiet events of a change that concerns neither the bindings nor the members. -/
theorem Follows.quiet (h : service.Follows c replica) (hes : Quiet es)
    (hholds : ∀ r, service.Holds c r → service'.Holds c r)
    (hname : ∀ r p, service.Holds c r → service'.nameOf r p = service.nameOf r p) :
  service'.Follows c (replica.observeAll name c es)
  := by
  rcases Replica.observeAll_quiet name replica hes with heq | heq
  · rw [heq]
    apply h.mono hholds hname
  · rw [heq]
    apply h.forget

/-- A binding leads to one room only. -/
theorem Holds.claim (hL : service.Represents L) (h : service.Holds c r) :
  ∃ t p, L.claim t = some ((r, p), some c)
  := by
  obtain ⟨token, session, hbinding, hsession, rfl⟩ := h
  obtain ⟨session', hsession', hconn, -⟩ := hL.session_of_binding hbinding
  rw [hsession] at hsession'
  cases hsession'
  have hclaim := hL.claim_of_session hsession
  rw [hconn] at hclaim
  exact ⟨token, _, hclaim⟩

theorem holds_of_claim (hL : service.Represents L) {t : Bytes} {p : UInt64}
    (h : L.claim t = some ((r, p), some c)) :
  service.Holds c r
  := by
  obtain ⟨session, hsession, hseat, -⟩ := hL.session_of_claim h
  rw [Session.seat, Prod.mk.injEq] at hseat
  exact ⟨t, session, hL.binding.mpr ⟨_, h⟩, hsession, hseat.1⟩

/-- The members of a room of a coherent service have different connections. -/
theorem members_inj (hL : service.Represents L) {r : UInt32} {room : Room}
    (hroom : service.roomManager.rooms.lookup r = some room) {p p' : UInt64}
    {member member' : Room.Member} (hmember : room.members.lookup p = some member)
    (hmember' : room.members.lookup p' = some member') (hc : member.connection = some c)
    (hc' : member'.connection = some c) :
  p = p'
  := by
  have hcoherent := hL.coherent.members_inj r r p p' member member' c
  rw [RoomManager.member_eq hroom, RoomManager.member_eq hroom] at hcoherent
  apply (hcoherent hmember hmember' hc hc').2

/-- The connection of a member holds a place in its room. -/
theorem holds_of_member (hL : service.Represents L) {r : UInt32} {p : UInt64}
    {member : Room.Member} (hmember : service.roomManager.member r p = some member)
    (hc : member.connection = some c) :
  service.Holds c r
  := by
  obtain ⟨t, ht⟩ := hL.member.mp (show _ = some (some c) by rw [hmember, ← hc]; rfl)
  apply holds_of_claim hL ht

theorem Holds.inj (h : service.Holds c r) (h' : service.Holds c r') : r = r' := by
  obtain ⟨token, session, hbinding, hsession, rfl⟩ := h
  obtain ⟨token', session', hbinding', hsession', rfl⟩ := h'
  rw [hbinding] at hbinding'
  cases hbinding'
  rw [hsession] at hsession'
  cases hsession'
  rfl

/-- The connection of a member is that of a player of the room. -/
theorem Holds.member (hL : service.Represents L) (h : service.Holds c r) {room : Room}
    (hroom : service.roomManager.rooms.lookup r = some room) :
  ∃ p member, room.members.lookup p = some member ∧ member.connection = some c
    ∧ ∃ t, L.claim t = some ((r, p), some c)
  := by
  obtain ⟨t, p, ht⟩ := h.claim hL
  obtain ⟨room', member, hroom', hmember, hc⟩ := hL.member_of_claim ht
  rw [hroom] at hroom'
  cases hroom'
  exact ⟨p, member, hmember, hc, t, ht⟩

/-! ### What a transaction does to the replicas -/

theorem nameOf_setRoom {r : UInt32} {room room' : Room}
    (hroom : service.roomManager.rooms.lookup r = some room)
    (sessionManager : SessionManager) (r' : UInt32) (p : UInt64) :
  nameOf ⟨service.roomManager.setRoom r room', sessionManager⟩ r' p
    = if r' = r then (room'.members.lookup p).map fun member => member.playerName
      else service.nameOf r' p
  := by
  rw [nameOf, RoomManager.member_setRoom hroom]
  split <;> rfl

theorem nameOf_eq {r : UInt32} {room : Room}
    (hroom : service.roomManager.rooms.lookup r = some room) (p : UInt64) :
  service.nameOf r p = (room.members.lookup p).map fun member => member.playerName
  := by
  rw [nameOf, RoomManager.member_eq hroom]

/-- Seating a member on another connection changes no name. -/
theorem nameOf_seat (hL : service.Represents L) {r : UInt32} {room : Room}
    (hroom : service.roomManager.rooms.lookup r = some room) {p : UInt64}
    {member : Room.Member} (hmember : room.members.lookup p = some member)
    (connection : ConnectionPtr) (sessionManager : SessionManager) (r' : UInt32) (p' : UInt64) :
  nameOf ⟨service.roomManager.setRoom r (room.seat member connection), sessionManager⟩ r' p'
    = service.nameOf r' p'
  := by
  rw [nameOf_setRoom hroom]
  split
  · next hr =>
    subst hr
    rw [nameOf_eq hroom, Room.lookup_seat (hL.valid.valid hroom) hmember]
    split
    · next hp =>
      rw [hp, hmember]
      rfl
    · rfl
  · rfl

/-- A frame about the members of a room is short. -/
theorem fits_playerJoined (r : UInt32) (p : UInt64) (hname : Protocol.NameFits name) :
  Codec.Fits ⟨MessageType.playerJoined.toU16,
    Protocol.appendU32 r ++ Protocol.appendMember ⟨p, name⟩⟩
  := by
  have hlen : name.length ≤ 32 := hname.2
  simp only [Codec.Fits, Protocol.appendU32, Protocol.appendMember, Protocol.appendU64_eq,
    Protocol.appendText, Protocol.appendU16, List.length_append, BigEndian.length_digits]
  omega

theorem fits_playerLeft (r : UInt32) (p : UInt64) :
  Codec.Fits ⟨MessageType.playerLeft.toU16, Protocol.appendU32 r ++ Protocol.appendU64 p⟩
  := by
  simp only [Codec.Fits, Protocol.appendU32, Protocol.appendU64_eq, List.length_append,
    BigEndian.length_digits]
  omega

theorem receive_playerJoined (r : UInt32) (member : MemberInfo)
    (hname : Protocol.NameFits member.playerName) (replica : Replica) :
  replica.receive name ⟨MessageType.playerJoined.toU16,
      Protocol.appendU32 r ++ Protocol.appendMember member⟩
    = replica.add r member
  := by
  rw [Replica.receive.eq_def]
  cases replica <;>
    simp [Protocol.parsePlayerJoined_append r hname, Replica.add]

theorem receive_playerLeft (r : UInt32) (p : UInt64) (replica : Replica) :
  replica.receive name ⟨MessageType.playerLeft.toU16,
      Protocol.appendU32 r ++ Protocol.appendU64 p⟩
    = replica.remove r p
  := by
  rw [Replica.receive.eq_def]
  cases replica <;>
    simp [Protocol.parsePlayerLeft_append, Replica.remove]

/-- A client that has joined knows the members of the room and itself. -/
theorem follows_joinOk (hholds : service'.Holds c r) {room : Room} (hvalid : room.Valid)
    {p : UInt64} (hp : p ∉ room.members) {token response : Bytes}
    (hresponse : Protocol.encodeJoinOk r p token (room.members.values.map Room.Member.info)
      = some response)
    (hname : ∀ p', service'.nameOf r p' = if p' = p then some name
      else (room.members.lookup p').map fun member => member.playerName) :
  service'.Follows c
    (Replica.untracked.receive name ⟨MessageType.joinOk.toU16, response⟩)
  := by
  have hnodup : ((room.members.values.map Room.Member.info
      ++ [(⟨p, name⟩ : MemberInfo)]).map fun member => member.playerId).Nodup := by
    rw [List.map_append, Room.map_playerId_infos hvalid, List.nodup_append]
    refine ⟨room.members.keys_nodup, by simp, ?_⟩
    intro k hk k' hk'
    rw [List.map_singleton, List.mem_singleton] at hk'
    rw [hk']
    rintro rfl
    apply hp hk
  obtain ⟨table, htrack, htable⟩ := Replica.track_spec r hnodup
  have hreceive : Replica.untracked.receive name ⟨MessageType.joinOk.toU16, response⟩
      = .tracking r table := by
    rw [Replica.receive.eq_def]
    simp [Protocol.parseJoinOk_of_encodeJoinOk hresponse, htrack]
  rw [hreceive]
  use hholds
  intro p'
  apply Option.ext
  intro x
  rw [htable, hname, List.mem_append, List.mem_singleton, Room.mem_infos hvalid,
    MemberInfo.mk.injEq]
  split
  · next hpp =>
    subst hpp
    rw [AList.lookup_eq_none.mpr hp]
    simp [eq_comm]
  · next hpp => simp [hpp]

/-- A client that has resumed knows the members of the room. -/
theorem follows_resumeOk (hholds : service'.Holds c r) {room : Room} (hvalid : room.Valid)
    {p : UInt64} {state : Roomstatemachine.States} {tickId : UInt64}
    {states : List PlayerGameState} {response : Bytes}
    (hresponse : Protocol.encodeResumeOk r p state tickId room.memberSnapshot states
      = some response)
    (hname : ∀ p', service'.nameOf r p'
      = (room.members.lookup p').map fun member => member.playerName) :
  service'.Follows c
    (Replica.untracked.receive name ⟨MessageType.resumeOk.toU16, response⟩)
  := by
  have hperm : room.memberSnapshot.Perm (room.members.values.map Room.Member.info) :=
    List.sortOn_perm _ _
  have hnodup : (room.memberSnapshot.map fun member => member.playerId).Nodup := by
    rw [(hperm.map _).nodup_iff, Room.map_playerId_infos hvalid]
    apply room.members.keys_nodup
  obtain ⟨table, htrack, htable⟩ := Replica.track_spec r hnodup
  have hreceive : Replica.untracked.receive name ⟨MessageType.resumeOk.toU16, response⟩
      = .tracking r table := by
    rw [Replica.receive.eq_def]
    simp [Protocol.parseResumeOk_of_encodeResumeOk hresponse, htrack]
  rw [hreceive]
  use hholds
  intro p'
  apply Option.ext
  intro x
  rw [htable, hname, hperm.mem_iff, Room.mem_infos hvalid]
  simp

/-- A client that is told of a new member of its room adds it. -/
theorem Follows.add (h : service.Follows c replica) {r : UInt32} {member : MemberInfo}
    (hnew : service.nameOf r member.playerId = none) (hholds : ∀ r, service.Holds c r →
      service'.Holds c r)
    (hname : ∀ r' p, service'.nameOf r' p = if (r', p) = (r, member.playerId)
      then some member.playerName else service.nameOf r' p) :
  service'.Follows c (replica.add r member)
  := by
  cases replica with
  | untracked => trivial
  | broken => cases h
  | tracking r' table =>
    rw [Replica.add]
    split
    · next hne =>
      use hholds r' h.1
      intro p
      rw [hname, if_neg (by simp [hne])]
      apply h.2 p
    · next heq =>
      rw [not_not] at heq
      subst heq
      have hmem : member.playerId ∉ table := by
        apply AList.lookup_eq_none.mp
        rw [h.2, hnew]
      rw [if_neg hmem]
      use hholds r' h.1
      intro p
      rw [hname, AList.lookup_insert_eq_ite]
      simp only [Prod.mk.injEq, true_and]
      split
      · rfl
      · apply h.2 p

/-- A client that is told of the loss of a member of its room removes it. -/
theorem Follows.remove (h : service.Follows c replica) {r : UInt32} {p : UInt64}
    (hold : service.nameOf r p ≠ none) (hholds : ∀ r, service.Holds c r → service'.Holds c r)
    (hname : ∀ r' p', service'.nameOf r' p' = if (r', p') = (r, p)
      then none else service.nameOf r' p') :
  service'.Follows c (replica.remove r p)
  := by
  cases replica with
  | untracked => trivial
  | broken => cases h
  | tracking r' table =>
    rw [Replica.remove]
    split
    · next hne =>
      use hholds r' h.1
      intro p'
      rw [hname, if_neg (by simp [hne])]
      apply h.2 p'
    · next heq =>
      rw [not_not] at heq
      subst heq
      have hmem : ¬p ∉ table := by
        rw [← AList.lookup_eq_none, h.2]
        exact hold
      rw [if_neg hmem]
      use hholds r' h.1
      intro p'
      rw [hname, AList.lookup_erase_eq_ite]
      simp only [Prod.mk.injEq, true_and]
      split
      · rfl
      · apply h.2 p'

/-- What is left of a replica when its connection has lost its binding. -/
def Stale (service service' : RoomService) (c : ConnId) (replica : Replica) : Prop :=
  replica ≠ .broken ∧ c ∈ service.sessionManager.bindings
    ∧ c ∉ service'.sessionManager.bindings

/-- The connections a room lists are those of other players that hold a place in it. -/
theorem mem_connections_iff (hL : service.Represents L) {room room' : Room}
    (hroom : service.roomManager.rooms.lookup r = some room) {p excluded : UInt64}
    (hentry : ∀ p', p' ≠ excluded →
      room'.members.lookup p' = if p' = p then none else room.members.lookup p')
    (hexcluded : excluded ∉ room.members) :
  some c ∈ room'.connections excluded
    ↔ ∃ t p', p' ≠ p ∧ L.claim t = some ((r, p'), some c)
  := by
  rw [Room.mem_connections]
  constructor
  · rintro ⟨p', member, c', hmember, hne, hconn, heq⟩
    cases heq
    rw [hentry p' hne] at hmember
    split at hmember
    · cases hmember
    · next hpp =>
      rw [← RoomManager.member_eq hroom] at hmember
      obtain ⟨t, ht⟩ := hL.member.mp (show _ = some (some c) by rw [hmember, ← hconn]; rfl)
      exact ⟨t, p', hpp, ht⟩
  · rintro ⟨t, p', hpp, ht⟩
    obtain ⟨room'', member, hroom'', hmember, hconn⟩ := hL.member_of_claim ht
    rw [hroom] at hroom''
    cases hroom''
    have hne : p' ≠ excluded := by
      rintro rfl
      apply hexcluded (AList.mem_iff_lookup.mpr ⟨member, hmember⟩)
    refine ⟨p', member, c, ?_, hne, hconn, rfl⟩
    rw [hentry p' hne, if_neg hpp, hmember]

/-- A room of the members of a room of a coherent service, and a member on a connection that
holds no place, lists no connection twice. -/
theorem nodup_connections (hL : service.Represents L) {room room' : Room}
    (hroom : service.roomManager.rooms.lookup r = some room) {excluded : UInt64}
    (hmember : ∀ {p member c}, room'.members.lookup p = some member →
      member.connection = some c →
      room.members.lookup p = some member ∨ p = excluded ∧ ¬service.Holds c r) :
  (room'.connections excluded).Nodup
  := by
  have hholds : ∀ {p member c}, room.members.lookup p = some member →
      member.connection = some c → service.Holds c r := by
    intro p member c hp hc
    rw [← RoomManager.member_eq hroom] at hp
    apply holds_of_member hL hp hc
  apply Room.nodup_connections
  intro k k' member member' c hk hk' hc hc'
  rcases hmember hk hc with hk | ⟨hk, hnot⟩ <;> rcases hmember hk' hc' with hk' | ⟨hk', hnot'⟩
  · apply members_inj hL hroom hk hk' hc hc'
  · exact absurd (hholds hk hc) hnot'
  · exact absurd (hholds hk' hc') hnot
  · rw [hk, hk']

/-- A room that differs from another in one member changes one name. -/
theorem nameOf_change {room room' : Room} {changed : Option Bytes} {p : UInt64}
    (hroom : service.roomManager.rooms.lookup r = some room)
    (hentry : ∀ p', (room'.members.lookup p').map (fun member => member.playerName)
      = if p' = p then changed else (room.members.lookup p').map fun member => member.playerName)
    (sessionManager : SessionManager) (r' : UInt32) (p' : UInt64) :
  nameOf ⟨service.roomManager.setRoom r room', sessionManager⟩ r' p'
    = if (r', p') = (r, p) then changed else service.nameOf r' p'
  := by
  rw [nameOf_setRoom hroom, hentry]
  simp only [Prod.mk.injEq]
  by_cases hr : r' = r
  · subst hr
    rw [if_pos rfl, nameOf_eq hroom]
    simp
  · simp [hr]

/-- A frame to connections that are all different is for those that are listed. -/
theorem Follows.broadcast (h : service.Follows c replica) {f : Frame} (hfits : Codec.Fits f)
    {connections : List ConnectionPtr} (hnodup : connections.Nodup)
    (hes : Broadcast f connections es)
    (hlisted : some c ∈ connections → service'.Follows c (replica.receive name f))
    (hunlisted : some c ∉ connections → service'.Follows c replica) :
  service'.Follows c (replica.observeAll name c es)
  := by
  by_cases hmem : some c ∈ connections
  · rcases Replica.observeAll_broadcast name replica hfits hes hnodup hmem with heq | heq
    · rw [heq]
      apply hlisted hmem
    · rw [heq]
      apply h.forget
  · rw [Replica.observeAll_broadcast_other name _ hes hmem]
    apply hunlisted hmem

section Enrol

variable {room room' : Room} {c₀ : ConnId}

/-- The connections of the others are those that hold a place in the room. -/
theorem mem_connections_enrol (hL : service.Represents L)
    (hroom : service.roomManager.rooms.lookup r = some room)
    (hp : room.nextPlayerId ∉ room.members) (name : Bytes) (c₀ c : ConnId) :
  some c ∈ (room.enrol name (some c₀)).connections room.nextPlayerId
    ↔ ∃ t p, p ≠ room.nextPlayerId ∧ L.claim t = some ((r, p), some c)
  := by
  apply mem_connections_iff hL hroom _ hp
  intro p hne
  rw [lookup_enrol, if_neg hne, if_neg hne]

theorem nodup_connections_enrol (hL : service.Represents L)
    (hroom : service.roomManager.rooms.lookup r = some room) (hfree : ¬service.Holds c₀ r) :
  ((room.enrol name (some c₀)).connections room.nextPlayerId).Nodup
  := by
  apply nodup_connections hL hroom
  intro p member c hmember hc
  rw [lookup_enrol] at hmember
  split at hmember
  · next heq =>
    cases hmember
    cases hc
    exact .inr ⟨heq, hfree⟩
  · exact .inl hmember

/-- Another connection keeps its place when a new session is bound. -/
theorem Holds.bind (h : service.Holds c r') {token : Bytes} {session : Session}
    {roomManager : RoomManager} (hcc : c ≠ c₀)
    (hnew : token ∉ service.sessionManager.sessions)
    (hservice' : service' = ⟨roomManager, { service.sessionManager with
      sessions := service.sessionManager.sessions.insert token session
      bindings := service.sessionManager.bindings.insert c₀ token }⟩) :
  service'.Holds c r'
  := by
  obtain ⟨t, session', hbinding, hsession, hr⟩ := h
  subst hservice'
  refine ⟨t, session', ?_, ?_, hr⟩
  · dsimp only
    rw [AList.lookup_insert_eq_ite, if_neg hcc, hbinding]
  · dsimp only
    rw [AList.lookup_insert_eq_ite, if_neg, hsession]
    rintro rfl
    apply hnew (AList.mem_iff_lookup.mpr ⟨session', hsession⟩)

/-- Enrolling a member: the replica of its connection starts, and the others of the room add
the member. -/
theorem follows_enrol (hL : service.Represents L) {token response : Bytes} {es es' : List Event}
    (hroom : service.roomManager.rooms.lookup r = some room)
    (hname : Protocol.NameFits name) (hwaiting : room.stateMachine.state = .waiting)
    (hsize : room.members.size < room.capacity.toNat) (hnext : room.nextPlayerId ≠ 0)
    (hroom' : room' = room.enrol name (some c₀)
      ∨ ((room.enrol name (some c₀)).start true).1 = .success
        ∧ room' = (room.enrol name (some c₀)).started)
    (hc₀ : c₀ ∉ service.sessionManager.bindings)
    (hnew : token ∉ service.sessionManager.sessions)
    (hresponse : Protocol.encodeJoinOk r room.nextPlayerId token
      (room.members.values.map Room.Member.info) = some response)
    (hes : SentTo c₀ ⟨MessageType.joinOk.toU16, response⟩ es)
    (hes' : Broadcast ⟨MessageType.playerJoined.toU16, Protocol.appendU32 r
        ++ Protocol.appendMember ⟨room.nextPlayerId, name⟩⟩
      ((room.enrol name (some c₀)).connections room.nextPlayerId) es')
    (hservice' : service' = ⟨service.roomManager.setRoom r room', { service.sessionManager with
      sessions := service.sessionManager.sessions.insert token
        (.newOnline r room.nextPlayerId (some c₀))
      bindings := service.sessionManager.bindings.insert c₀ token }⟩)
    (hfollows : service.Follows c replica) :
  service'.Follows c (replica.observeAll name c (es ++ es'))
  := by
  have hvalid := hL.valid.valid hroom
  have hp := hvalid.next_notMem hnext
  have hmembers := (enrolled_cases hvalid hname hwaiting hsize hnext hroom').2.2
  have hfree : ¬service.Holds c₀ r := fun h => hc₀ h.mem
  have hconnections := mem_connections_enrol hL hroom hp name c₀ c
  have hnone : service.nameOf r room.nextPlayerId = none := by
    rw [nameOf_eq hroom, AList.lookup_eq_none.mpr hp]
    rfl
  have hnames : ∀ r' p, service'.nameOf r' p
      = if (r', p) = (r, room.nextPlayerId) then some name else service.nameOf r' p := by
    subst hservice'
    apply nameOf_change hroom
    intro p
    rw [hmembers, lookup_enrol]
    split <;> rfl
  rw [Replica.observeAll_append]
  by_cases hcc : c = c₀
  · subst hcc
    rw [hfollows.of_unbound hc₀, Replica.observeAll_broadcast_other name _ hes']
    · rcases Replica.observeAll_sentTo name .untracked hes with ⟨-, heq⟩ | heq | heq
      · rw [heq]
        trivial
      · rw [heq]
        apply follows_joinOk _ hvalid hp hresponse
        · intro p
          rw [hnames, nameOf_eq hroom]
          simp
        · subst hservice'
          exact ⟨token, _, AList.lookup_insert _, AList.lookup_insert _, rfl⟩
      · rw [heq]
        trivial
    · rw [hconnections]
      rintro ⟨t, p, -, ht⟩
      apply hfree (holds_of_claim hL ht)
  · have hholds : ∀ r', service.Holds c r' → service'.Holds c r' :=
      fun r' h => h.bind hcc hnew hservice'
    rw [Replica.observeAll_sentTo_other name _ (Ne.symm hcc) hes]
    apply hfollows.broadcast (fits_playerJoined r room.nextPlayerId hname)
      (nodup_connections_enrol hL hroom hfree) hes'
    · intro _
      rw [receive_playerJoined r ⟨room.nextPlayerId, name⟩ hname]
      apply hfollows.add hnone hholds hnames
    · intro hunlisted
      apply hfollows.mono hholds
      intro r' p hheld
      rw [hnames, if_neg]
      rintro ⟨⟩
      obtain ⟨p', member, hmember, -, t, ht⟩ := hheld.member hL hroom
      apply hunlisted (hconnections.mpr ⟨t, p', _, ht⟩)
      rintro rfl
      apply hp (AList.mem_iff_lookup.mpr ⟨member, hmember⟩)

end Enrol

section Remove

variable {token : Bytes} {session : Session} {room : Room}

theorem lookup_dismiss (room : Room) (p p' : UInt64) :
  (room.dismiss p).members.lookup p' = if p' = p then none else room.members.lookup p'
  := AList.lookup_erase_eq_ite room.members p' p

theorem nodup_connections_dismiss (hL : service.Represents L)
    (hroom : service.roomManager.rooms.lookup r = some room) (p : UInt64) :
  ((room.dismiss p).connections 0).Nodup
  := by
  apply nodup_connections hL hroom
  intro p' member c' hmember _
  rw [lookup_dismiss] at hmember
  split at hmember
  · cases hmember
  · exact .inl hmember

/-- Another connection keeps its place when a session is erased. -/
theorem Holds.erase (h : service.Holds c r) {bindings : UnorderedMap ConnId Bytes}
    {roomManager : RoomManager}
    (hbindings : ∀ c t, bindings.lookup c = some t
      ↔ t ≠ token ∧ service.sessionManager.bindings.lookup c = some t)
    (hc : service.sessionManager.bindings.lookup c ≠ some token)
    (hservice' : service' = ⟨roomManager, { service.sessionManager with
      sessions := service.sessionManager.sessions.erase token, bindings }⟩) :
  service'.Holds c r
  := by
  obtain ⟨t, session, hbinding, hsession, hr⟩ := h
  have hne : t ≠ token := by
    rintro rfl
    apply hc hbinding
  subst hservice'
  refine ⟨t, session, (hbindings c t).mpr ⟨hne, hbinding⟩, ?_, hr⟩
  dsimp only
  rw [AList.lookup_erase_eq_ite, if_neg hne, hsession]

/-- The connections the room still lists hold a place in it, which that of the member that was
removed does not. -/
theorem mem_connections_dismiss (hL : service.Represents L)
    (hsession : service.sessionManager.sessions.lookup token = some session)
    (hroom : service.roomManager.rooms.lookup session.roomId = some room) :
  some c ∈ (room.dismiss session.playerId).connections 0
    ↔ service.Holds c session.roomId ∧ service.sessionManager.bindings.lookup c ≠ some token
  := by
  have hzero : (0 : UInt64) ∉ room.members := fun h => (hL.valid.valid hroom).id_ne_zero h rfl
  have hclaim := hL.claim_of_session hsession
  rw [mem_connections_iff hL hroom (fun p _ => lookup_dismiss room session.playerId p) hzero]
  constructor
  · rintro ⟨t, p, hp, ht⟩
    use holds_of_claim hL ht
    intro hc
    obtain ⟨seat, htoken⟩ := hL.binding.mp hc
    have heq := L.conn_inj ht htoken
    subst heq
    rw [hclaim, Option.some.injEq, Prod.mk.injEq, Session.seat, Prod.mk.injEq] at ht
    apply hp ht.1.2.symm
  · rintro ⟨hheld, hc⟩
    obtain ⟨t, p, ht⟩ := hheld.claim hL
    refine ⟨t, p, ?_, ht⟩
    rintro rfl
    have heq := L.seat_inj ht hclaim
    subst heq
    apply hc (hL.binding.mpr ⟨_, ht⟩)

/-- Removing a member: the others of the room remove it, and the connection of the member, if
it has one, loses its binding. -/
theorem follows_remove (hL : service.Represents L) {bindings : UnorderedMap ConnId Bytes}
    {es es' : List Event}
    (hsession : service.sessionManager.sessions.lookup token = some session)
    (hroom : service.roomManager.rooms.lookup session.roomId = some room)
    (hbindings : ∀ c t, bindings.lookup c = some t
      ↔ t ≠ token ∧ service.sessionManager.bindings.lookup c = some t)
    (hes : Quiet es)
    (hes' : Broadcast ⟨MessageType.playerLeft.toU16, Protocol.appendU32 session.roomId
        ++ Protocol.appendU64 session.playerId⟩
      ((room.dismiss session.playerId).connections 0) es')
    (hservice' : service' = ⟨service.roomManager.setRoom session.roomId
      (room.dismiss session.playerId), { service.sessionManager with
        sessions := service.sessionManager.sessions.erase token, bindings }⟩)
    (hfollows : service.Follows c replica) :
  service'.Follows c (replica.observeAll name c (es ++ es'))
    ∨ Stale service service' c (replica.observeAll name c (es ++ es'))
  := by
  have hconnections := mem_connections_dismiss (c := c) hL hsession hroom
  have hquiet : service.Follows c (replica.observeAll name c es) :=
    hfollows.quiet hes (fun _ h => h) fun _ _ _ => rfl
  rw [Replica.observeAll_append]
  by_cases hc : service.sessionManager.bindings.lookup c = some token
  · right
    rw [Replica.observeAll_broadcast_other name _ hes' fun h => (hconnections.mp h).2 hc]
    refine ⟨hquiet.ne_broken, AList.mem_iff_lookup.mpr ⟨token, hc⟩, ?_⟩
    rw [hservice', ← AList.lookup_eq_none, Option.eq_none_iff_forall_ne_some]
    intro t ht
    obtain ⟨hne, ht⟩ := (hbindings c t).mp ht
    rw [hc] at ht
    apply hne (Option.some.inj ht).symm
  · left
    have hholds : ∀ r, service.Holds c r → service'.Holds c r :=
      fun r h => h.erase hbindings hc hservice'
    have hnames : ∀ r p, service'.nameOf r p
        = if (r, p) = (session.roomId, session.playerId) then none else service.nameOf r p := by
      subst hservice'
      apply nameOf_change hroom
      intro p
      rw [lookup_dismiss]
      split <;> rfl
    apply hquiet.broadcast (fits_playerLeft session.roomId session.playerId)
      (nodup_connections_dismiss hL hroom _) hes'
    · intro _
      rw [receive_playerLeft]
      apply hquiet.remove _ hholds hnames
      obtain ⟨room', member, hroom', hmember, -⟩ :=
        hL.member_of_claim (hL.claim_of_session hsession)
      rw [hroom] at hroom'
      cases hroom'
      rw [nameOf_eq hroom, hmember]
      simp
    · intro hunlisted
      apply hquiet.mono hholds
      intro r p hheld
      rw [hnames, if_neg]
      rintro ⟨⟩
      apply hunlisted (hconnections.mpr ⟨hheld, hc⟩)

end Remove

/-- Binding a session: the replica of its new connection starts. -/
theorem follows_bind (hL : service.Represents L) {token : Bytes} {session : Session}
    {room : Room} {member : Room.Member} {c₀ : ConnId} {response : Bytes}
    {state : Roomstatemachine.States} {tickId : UInt64} {states : List PlayerGameState}
    (hsession : service.sessionManager.sessions.lookup token = some session)
    (hroom : service.roomManager.rooms.lookup session.roomId = some room)
    (hmember : room.members.lookup session.playerId = some member)
    (hoffline : session.state = .offline) (hc₀ : c₀ ∉ service.sessionManager.bindings)
    (hresponse : Protocol.encodeResumeOk session.roomId session.playerId state tickId
      (room.seat member (some c₀)).memberSnapshot states = some response)
    (hes : SentTo c₀ ⟨MessageType.resumeOk.toU16, response⟩ es)
    (hservice' : service' = ⟨service.roomManager.setRoom session.roomId
      (room.seat member (some c₀)), { service.sessionManager with
        sessions := service.sessionManager.sessions.assign token
          { session with connection := some c₀, state := .online }
        bindings := service.sessionManager.bindings.insert c₀ token }⟩)
    (hfollows : service.Follows c replica) :
  service'.Follows c (replica.observeAll name c es)
  := by
  have hvalid := (hL.valid.valid hroom).seat hmember (some c₀)
  have hmem := AList.mem_iff_lookup.mpr ⟨session, hsession⟩
  have hnames : ∀ r p, service'.nameOf r p = service.nameOf r p :=
    hservice' ▸ nameOf_seat hL hroom hmember _ _
  by_cases hcc : c = c₀
  · subst hcc
    rw [hfollows.of_unbound hc₀]
    rcases Replica.observeAll_sentTo name .untracked hes with ⟨-, heq⟩ | heq | heq
    · rw [heq]
      trivial
    · rw [heq]
      apply follows_resumeOk _ hvalid hresponse
      · intro p
        rw [hservice', nameOf_setRoom hroom, if_pos rfl]
      · subst hservice'
        refine ⟨token, { session with connection := some c, state := .online },
          AList.lookup_insert _, ?_, rfl⟩
        dsimp only
        rw [AList.lookup_assign_of_mem hmem, if_pos rfl]
    · rw [heq]
      trivial
  · rw [Replica.observeAll_sentTo_other name _ (Ne.symm hcc) hes]
    apply hfollows.mono
    · rintro r ⟨t, session', hbinding, hsession', hr⟩
      have hne : t ≠ token := by
        rintro rfl
        obtain ⟨session'', hsession'', -, hstate⟩ := hL.session_of_binding hbinding
        rw [hsession] at hsession''
        cases hsession''
        rw [hoffline] at hstate
        cases hstate
      subst hservice'
      refine ⟨t, session', ?_, ?_, hr⟩
      · dsimp only
        rw [AList.lookup_insert_eq_ite, if_neg hcc, hbinding]
      · dsimp only
        rw [AList.lookup_assign_of_mem hmem, if_neg hne, hsession']
    · intro r p _
      apply hnames r p

/-- Unbinding a session: its connection loses its binding, and the others are not told. -/
theorem follows_unbind (hL : service.Represents L) {token : Bytes} {session : Session}
    {room : Room} {member : Room.Member} {c₀ : ConnId} {deadline : Int}
    (hbinding : service.sessionManager.bindings.lookup c₀ = some token)
    (hsession : service.sessionManager.sessions.lookup token = some session)
    (hroom : service.roomManager.rooms.lookup session.roomId = some room)
    (hmember : room.members.lookup session.playerId = some member)
    (hservice' : service' = ⟨service.roomManager.setRoom session.roomId (room.seat member none),
      { service.sessionManager with
        sessions := service.sessionManager.sessions.assign token
          { session with
            connection := none
            offlineDeadline := deadline
            state := .offline }
        bindings := service.sessionManager.bindings.erase c₀ }⟩)
    (hfollows : service.Follows c replica) :
  service'.Follows c replica ∨ Stale service service' c replica
  := by
  have hmem := AList.mem_iff_lookup.mpr ⟨session, hsession⟩
  have hnames : ∀ r p, service'.nameOf r p = service.nameOf r p :=
    hservice' ▸ nameOf_seat hL hroom hmember _ _
  by_cases hcc : c = c₀
  · right
    subst hcc
    refine ⟨?_, AList.mem_iff_lookup.mpr ⟨token, hbinding⟩, ?_⟩
    · rintro rfl
      exact hfollows
    · rw [hservice', AList.mem_erase]
      exact fun h => h.1 rfl
  · left
    apply hfollows.mono
    · rintro r ⟨t, session', hbinding', hsession', hr⟩
      have hne : t ≠ token := by
        rintro rfl
        obtain ⟨seat, hclaim⟩ := hL.binding.mp hbinding
        obtain ⟨seat', hclaim'⟩ := hL.binding.mp hbinding'
        rw [hclaim, Option.some.injEq, Prod.mk.injEq, Option.some.injEq] at hclaim'
        apply hcc hclaim'.2.symm
      subst hservice'
      refine ⟨t, session', ?_, ?_, hr⟩
      · dsimp only
        rw [AList.lookup_erase_eq_ite, if_neg hcc, hbinding']
      · dsimp only
        rw [AList.lookup_assign_of_mem hmem, if_neg hne, hsession']
    · intro r p _
      apply hnames r p

/-! ### Transactions, tasks and runs -/

/-- A transaction keeps the replicas in step, but for that of a connection it unbinds. -/
theorem Transaction.follows (h : Transaction name fresh service es service')
    (hL : service.Represents L) (hfollows : service.Follows c replica) :
  service'.Follows c (replica.observeAll name c es)
    ∨ Stale service service' c (replica.observeAll name c es)
  := by
  cases h with
  | quiet hes => exact .inl (hfollows.quiet hes (fun _ h => h) fun _ _ _ => rfl)
  | @skipId r room _ hroom hnext hes =>
    left
    apply hfollows.quiet hes
    · exact fun _ h => h
    · intro r' p _
      rw [nameOf_setRoom hroom]
      split
      · next hr =>
        rw [hr, nameOf_eq hroom]
        rfl
      · rfl
  | @submit r room _ hroom pendingCommands hes =>
    left
    apply hfollows.quiet hes
    · exact fun _ h => h
    · intro r' p _
      rw [nameOf_setRoom hroom]
      split
      · next hr => rw [hr, nameOf_eq hroom]
      · rfl
  | tick hes =>
    left
    apply hfollows.quiet hes
    · exact fun _ h => h
    · intro r p _
      rw [nameOf, RoomManager.member_tickRooms]
      rfl
  | enrol hroom hname hwaiting hsize hnext hroom' hc _ hnew hresponse hes hes' =>
    exact .inl (follows_enrol hL hroom hname hwaiting hsize hnext hroom' hc hnew hresponse
      hes hes' rfl hfollows)
  | bind hsession hoffline hc hroom hmember hresponse hes =>
    exact .inl (follows_bind hL hsession hroom hmember hoffline hc hresponse hes rfl hfollows)
  | unbind hbinding hsession hroom hmember deadline =>
    apply follows_unbind hL hbinding hsession hroom hmember rfl hfollows
  | remove hsession hroom hbindings hes hes' =>
    apply follows_remove hL hsession hroom hbindings hes hes' rfl hfollows

/-- Tasks keep the replicas in step, but for that of a connection they unbind. -/
theorem Transactions.follows (h : Transactions name fresh service es service')
    (hL : service.Represents L) (hfollows : service.Follows c replica) :
  service'.Follows c (replica.observeAll name c es)
    ∨ Stale service service' c (replica.observeAll name c es)
  := by
  induction h generalizing L replica with
  | nil => exact .inl hfollows
  | single h => apply h.follows hL hfollows
  | cons h hbindings _ ih =>
    rw [Replica.observeAll_append]
    obtain ⟨L', -, hL'⟩ := h.represents hL
    rcases h.follows hL hfollows with hnext | ⟨-, hbound, hunbound⟩
    · rcases ih hL' hnext with hlast | ⟨hne, hbound, hunbound⟩
      · exact .inl hlast
      · exact .inr ⟨hne, hbindings ▸ hbound, hunbound⟩
    · rw [hbindings] at hunbound
      exact absurd hbound hunbound

end RoomService

/-- The service with the replicas of the clients. -/
structure Observed where
  service : RoomService
  replica : ConnId → Replica

namespace Observed

/-- The name a player asks for with an action. -/
def requestedName : RoomService.Action → Bytes
  | .task task _ => task.requestedName
  | _ => []

/-- The events of an action. -/
def events (service : RoomService) : RoomService.Action → List Event
  | .task task answers => (service.run answers task).2
  | _ => []

/-- The replica of an unbound connection is given up. -/
def settle (service : RoomService) (c : ConnId) (replica : Replica) : Replica :=
  if c ∈ service.sessionManager.bindings then replica else replica.forget

/-- The service and the clients that observe it. -/
def system : System Observed RoomService.Action where
  Initial observed := RoomService.system.Initial observed.service
    ∧ ∀ c, observed.replica c = .untracked
  Step observed action observed' :=
    RoomService.system.Step observed.service action observed'.service
      ∧ ∀ c, observed'.replica c = settle observed'.service c ((observed.replica c).observeAll
          (requestedName action) c (events observed.service action))

variable {observed observed' : Observed} {c : ConnId} {replica : Replica}

theorem follows_settle {service : RoomService} (hne : replica ≠ .broken)
    (h : c ∈ service.sessionManager.bindings → service.Follows c replica) :
  service.Follows c (settle service c replica)
  := by
  rw [settle]
  split
  · next hbound => apply h hbound
  · cases replica with
    | untracked => trivial
    | tracking => trivial
    | broken => exact absurd rfl hne

/-- An action keeps the replicas of the bound connections in step, and breaks none. -/
theorem follows_observeAll {action : RoomService.Action} {L : Ledger}
    (hL : observed.service.Represents L)
    (hstep : RoomService.system.Step observed.service action observed'.service)
    (hfollows : observed.service.Follows c replica) :
  replica.observeAll (requestedName action) c (events observed.service action) ≠ .broken
    ∧ (c ∈ observed'.service.sessionManager.bindings → observed'.service.Follows c
      (replica.observeAll (requestedName action) c (events observed.service action)))
  := by
  cases action with
  | addRoom r capacity =>
    use hfollows.ne_broken
    intro _
    apply hfollows.mono
    · rw [show observed'.service = _ from hstep]
      exact fun _ h => h
    · intro r' p _
      rw [show observed'.service = _ from hstep, RoomService.nameOf, RoomService.nameOf]
      apply congrArg _ (RoomManager.member_addRoom _ r capacity r' p)
  | restore checkpoint now =>
    use hfollows.ne_broken
    intro hbound
    obtain ⟨-, -, -, roomManager, sessionManager, -, hsessions, heq⟩ :=
      RoomService.restoreCheckpoint_eq_true_iff.mp hstep
    rw [heq, (SessionManager.restoreCheckpoint_spec hsessions).1] at hbound
    exact absurd hbound (AList.notMem_empty c)
  | task task answers =>
    have hrun := RoomService.run_transacts hL answers task
    rw [RoomService.Transacts, ← show observed'.service = _ from hstep] at hrun
    rcases hrun.follows hL hfollows with hfollows' | ⟨hne, -, hunbound⟩
    · exact ⟨hfollows'.ne_broken, fun _ => hfollows'⟩
    · exact ⟨hne, fun hbound => absurd hbound hunbound⟩
  | reorder =>
    use hfollows.ne_broken
    intro _
    apply hfollows.mono
    · rintro r ⟨token, session, hbinding, hsession, hr⟩
      exact ⟨token, session, (hstep.bindings c).symm.trans hbinding,
        (hstep.sessions token).symm.trans hsession, hr⟩
    · intro r p _
      rw [RoomService.nameOf, hstep.member]
      rfl

/-- In every state reached the service is in step with claims, and the replicas with the
service. -/
theorem follows_of_reachable (h : system.Reachable observed) :
  (∃ L, observed.service.Represents L)
    ∧ ∀ c, observed.service.Follows c (observed.replica c)
  := by
  apply h.invariant
  · rintro ⟨service, replica⟩ ⟨⟨reconnectTimeout, rfl⟩, hreplica⟩
    refine ⟨⟨_, RoomService.new_represents reconnectTimeout⟩, fun c => ?_⟩
    rw [hreplica]
    trivial
  · rintro observed action observed' ⟨⟨L, hL⟩, hfollows⟩ - ⟨hstep, hreplica⟩
    use RoomService.system_represents hL hstep
    intro c
    obtain ⟨hne, hfollows'⟩ := follows_observeAll hL hstep (hfollows c)
    rw [hreplica]
    apply follows_settle hne hfollows'

/-- The table of a client that is not given up holds exactly the members of the room its
connection is bound to, and no client is told of a member it already has or of the loss of one
it has not. -/
theorem roster_of_reachable (h : system.Reachable observed) (c : ConnId) :
  observed.replica c ≠ .broken
    ∧ ∀ r table, observed.replica c = .tracking r table →
      ∃ token session room,
        observed.service.sessionManager.bindings.lookup c = some token
        ∧ observed.service.sessionManager.sessions.lookup token = some session
        ∧ session.roomId = r
        ∧ observed.service.roomManager.rooms.lookup r = some room
        ∧ ∀ p name, table.lookup p = some name
          ↔ ∃ member, room.members.lookup p = some member ∧ member.playerName = name
  := by
  obtain ⟨⟨L, hL⟩, hfollows⟩ := follows_of_reachable h
  have hc := hfollows c
  constructor
  · intro hbroken
    rw [hbroken] at hc
    exact hc
  · intro r table htracking
    rw [htracking] at hc
    obtain ⟨⟨token, session, hbinding, hsession, rfl⟩, htable⟩ := hc
    obtain ⟨room, member, hroom, -, -⟩ := hL.member_of_claim (hL.claim_of_session hsession)
    refine ⟨token, session, room, hbinding, hsession, rfl, hroom, ?_⟩
    intro p name
    rw [htable, RoomService.nameOf_eq hroom, Option.map_eq_some_iff]

/-- The state after a task. -/
def after (observed : Observed) (task : Task) (answers : Answers) : Observed where
  service := (observed.service.run answers task).1
  replica c := settle (observed.service.run answers task).1 c
    ((observed.replica c).observeAll task.requestedName c (observed.service.run answers task).2)

/-- The state after a player named `A` has joined a room for two on the connection 7, and then
one named `B` on the connection 8. -/
def paired : Observed :=
  let answers : Answers := ⟨fun _ _ _ => true, fun _ _ => false⟩
  let service := ((RoomService.new 30000).addRoom true 1 2).2
  let observed : Observed := ⟨service, fun _ => .untracked⟩
  let observed := observed.after
    (.frame (some 7) MessageType.join.toU16 [0, 0, 0, 1, 0, 1, 65] [1] 0) answers
  observed.after (.frame (some 8) MessageType.join.toU16 [0, 0, 0, 1, 0, 1, 66] [2] 0) answers

theorem paired_reachable :
  system.Reachable paired
  := by
  have hinit : system.Reachable ⟨.new 30000, fun _ => .untracked⟩ :=
    .initial ⟨⟨30000, rfl⟩, fun _ => rfl⟩
  have hroom : system.Reachable
      ⟨((RoomService.new 30000).addRoom true 1 2).2, fun _ => .untracked⟩ := by
    apply hinit.step (ℓ := .addRoom 1 2) trivial
    refine ⟨rfl, fun c => ?_⟩
    rw [settle]
    split <;> rfl
  have hstep : ∀ {observed task answers}, system.Reachable observed →
      system.Reachable (observed.after task answers) := by
    intro observed task answers h
    exact h.step (ℓ := .task task answers) trivial ⟨rfl, fun _ => rfl⟩
  apply hstep (hstep hroom)

theorem paired_roster :
  ∃ r table room, paired.replica 7 = .tracking r table
    ∧ paired.service.roomManager.rooms.lookup r = some room
    ∧ ∀ p name, table.lookup p = some name
      ↔ ∃ member, room.members.lookup p = some member ∧ member.playerName = name
  := by
  obtain ⟨hne, htracking⟩ := roster_of_reachable paired_reachable 7
  cases h : paired.replica 7 with
  | untracked => exact absurd h (by decide +kernel)
  | broken => exact absurd h hne
  | tracking r table =>
    obtain ⟨_, _, room, -, -, -, hroom, htable⟩ := htracking r table h
    exact ⟨r, table, room, rfl, hroom, htable⟩

end Observed

end RoomServer
