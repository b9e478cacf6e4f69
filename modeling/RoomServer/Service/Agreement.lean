import RoomServer.Lib.Forum
import RoomServer.Service.Periods

/-!
# What the players of a room agree on

The frames that tell what a member of a room did make one record for each room: the service
tells them to all who are connected in the room, and to all of them in one order.  So the
service is a forum whose groups are the rooms, and any two players that are connected in a room
have been told the same, from when the later of them took its place.
-/

namespace RoomServer

variable {c : ConnId} {f : Frame} {es es' : List Event} {r : UInt32} {p : UInt64}

/-! ### What members do -/

/-- The frame tells what a member of a room did. -/
def Frame.isTalk (f : Frame) : Bool :=
  [MessageType.playerJoined, .playerLeft, .chatEvent].any fun type => f.type == type.toU16

/-- What a connection is told that members did. -/
def talk (c : ConnId) (es : List Event) : List Frame := (offeredTo c es).filter Frame.isTalk

theorem talk_append (c : ConnId) (es es' : List Event) :
  talk c (es ++ es') = talk c es ++ talk c es'
  := by
  rw [talk, offeredTo_append, List.filter_append]
  rfl

theorem Frame.isTalk_eq_false {type : MessageType}
    (h : type ∉ [MessageType.playerJoined, .playerLeft, .chatEvent]) (payload : Bytes) :
  Frame.isTalk ⟨type.toU16, payload⟩ = false
  := by
  have hall : ∀ type ∉ [MessageType.playerJoined, .playerLeft, .chatEvent],
      ([MessageType.playerJoined, .playerLeft, .chatEvent].any fun talk =>
        type.toU16 == talk.toU16) = false := by
    intro type
    cases type <;> decide
  apply hall type h

theorem talk_eq_nil (h : ∀ f ∈ offeredTo c es, f.isTalk = false) : talk c es = [] := by
  rw [talk, List.filter_eq_nil_iff]
  intro f hf
  rw [h f hf]
  decide

/-- Who is not sent a talk is told nothing. -/
theorem SentTo.talk {c' : ConnId} (h : SentTo c' f es) (hf : f.isTalk = false) (c : ConnId) :
  RoomServer.talk c es = []
  := by
  apply talk_eq_nil
  intro g hg
  rw [(h.mem_offeredTo hg).1]
  exact hf

theorem Denied.talk {c' : ConnId} {requestType : MessageType} (h : Denied c' requestType es)
    (c : ConnId) :
  RoomServer.talk c es = []
  := by
  obtain ⟨errorCode, hes⟩ := h
  apply hes.talk (Frame.isTalk_eq_false (by decide) _)

/-- A frame that is sent to some connections is offered once to each of them. -/
theorem Broadcast.offeredTo {connections : List ConnectionPtr}
    (h : Broadcast f connections es) (hfits : Codec.Fits f) (hnodup : connections.Nodup)
    (c : ConnId) :
  RoomServer.offeredTo c es = if some c ∈ connections then [f] else []
  := by
  induction h with
  | nil => rfl
  | null _ ih =>
    rw [List.nodup_cons] at hnodup
    rw [ih hnodup.2]
    simp
  | @cons c' connections es es' hc _ ih =>
    rw [List.nodup_cons] at hnodup
    rw [offeredTo_append, ih hnodup.2]
    by_cases hcc : c = c'
    · subst hcc
      rw [hc.offeredTo_self hfits, if_neg hnodup.1, if_pos List.mem_cons_self]
      rfl
    · rw [hc.offeredTo_other (Ne.symm hcc), List.nil_append]
      simp [hcc]

theorem Broadcast.talk {connections : List ConnectionPtr} (h : Broadcast f connections es)
    (hfits : Codec.Fits f) (htalk : f.isTalk = true) (hnodup : connections.Nodup) (c : ConnId) :
  RoomServer.talk c es = if some c ∈ connections then [f] else []
  := by
  rw [RoomServer.talk, h.offeredTo hfits hnodup]
  split
  · exact List.filter_cons_of_pos htalk
  · rfl

namespace RoomService

variable {service service' : RoomService} {L : Ledger}

/-- The room in which a connection has its player. -/
def placeOf (service : RoomService) (c : ConnId) : Option UInt32 := (service.seatOf c).map Prod.fst

/-- The task says something in some rooms: who keeps its seat is told what is said in its room. -/
def Turn (service service' : RoomService) (es : List Event) : Prop :=
  ∃ said : List (UInt32 × Frame), ∀ c, service'.seatOf c = service.seatOf c →
    talk c es = Forum.told (service.placeOf c) said

theorem turn_quiet (h : ∀ c, talk c es = []) : Turn service service' es := ⟨[], fun c _ => h c⟩

theorem told_singleton (r : UInt32) (f : Frame) (c : ConnId) :
  Forum.told (service.placeOf c) [(r, f)] = if service.placeOf c = some r then [f] else []
  := by
  rw [Forum.told, List.filterMap_cons]
  split <;> rename_i h <;> split at h <;> simp_all

theorem placeOf_eq_some_iff : service.placeOf c = some r ↔ ∃ p, service.seatOf c = some (r, p) := by
  simp [placeOf]

/-- A frame is told to all who are connected in a room but one. -/
theorem turn_broadcast {connections : List ConnectionPtr} (h : Broadcast f connections es)
    (hfits : Codec.Fits f) (htalk : f.isTalk = true) (hnodup : connections.Nodup)
    (hlisted : ∀ c, service'.seatOf c = service.seatOf c →
      (some c ∈ connections ↔ ∃ p, service.seatOf c = some (r, p))) :
  Turn service service' es
  := by
  use [(r, f)]
  intro c hsame
  rw [h.talk hfits htalk hnodup, told_singleton]
  have hiff := (hlisted c hsame).trans placeOf_eq_some_iff.symm
  by_cases hmem : some c ∈ connections
  · rw [if_pos hmem, if_pos (hiff.mp hmem)]
  · rw [if_neg hmem, if_neg fun hplace => hmem (hiff.mpr hplace)]

/-- Who keeps its seat keeps it through two turns of which the first moves nobody. -/
theorem Turn.append {service'' : RoomService} (h : Turn service service' es)
    (h' : Turn service' service'' es') (hsame : ∀ c, service'.seatOf c = service.seatOf c) :
  Turn service service'' (es ++ es')
  := by
  obtain ⟨said, hsaid⟩ := h
  obtain ⟨said', hsaid'⟩ := h'
  use said ++ said'
  intro c hc
  have hc' : service''.seatOf c = service'.seatOf c := hc.trans (hsame c).symm
  have hplace : service'.placeOf c = service.placeOf c := by rw [placeOf, hsame c]; rfl
  rw [talk_append, hsaid c (hsame c), hsaid' c hc', hplace, Forum.told, Forum.told, Forum.told,
    List.filterMap_append]

/-- Nothing was said before the turn. -/
theorem Turn.behind (h : Turn service service' es') (hquiet : ∀ c, talk c es = []) :
  Turn service service' (es ++ es')
  := by
  obtain ⟨said, hsaid⟩ := h
  use said
  intro c hsame
  rw [talk_append, hquiet, List.nil_append, hsaid c hsame]

/-! ### The tasks -/

/-- The connections of a room of which one is not told are those of the other seats. -/
theorem listed_iff_ne (hL : service.Represents L) {room : Room}
    (hroom : service.roomManager.rooms.lookup r = some room) (excluded : UInt64) :
  some c ∈ room.connections excluded ↔ ∃ p, p ≠ excluded ∧ service.seatOf c = some (r, p)
  := by
  constructor
  · intro h
    obtain ⟨p, hp, hne, -⟩ := seatOf_of_mem_connections hL hroom h
    exact ⟨p, hne, hp⟩
  · rintro ⟨p, hne, hp⟩
    obtain ⟨t, ht⟩ := (seatOf_eq_some_iff hL).mp hp
    obtain ⟨room', member, hroom', hmember, hconn⟩ := hL.member_of_claim ht
    rw [hroom, Option.some.injEq] at hroom'
    subst hroom'
    apply Room.mem_connections.mpr ⟨p, member, c, hmember, hne, hconn, rfl⟩

/-- No connection is listed twice. -/
theorem nodup_listed (hL : service.Represents L) {room : Room}
    (hroom : service.roomManager.rooms.lookup r = some room) (excluded : UInt64) :
  (room.connections excluded).Nodup
  := nodup_connections hL hroom fun hmember _ => .inl hmember

theorem turn_of_playerLeft (hL : service'.Represents L) {room : Room}
    (hroom : service'.roomManager.rooms.lookup r = some room)
    (hes : Broadcast ⟨MessageType.playerLeft.toU16, Protocol.appendU32 r ++ Protocol.appendU64 p⟩
      (room.connections 0) es) :
  Turn service service' es
  := by
  apply turn_broadcast hes (fits_playerLeft r p) rfl (nodup_listed hL hroom 0)
  intro c hsame
  rw [listed_iff hL hroom, hsame]

theorem JoinOutcome.turn {payload token : Bytes} {c₀ : ConnId} (hL : service.Represents L)
    (h : JoinOutcome service c₀ payload token service' es) :
  Turn service service' es
  := by
  obtain ⟨L', hL'⟩ := h.transacts.represents hL
  generalize hservice : service' = joined at h
  rw [← hservice]
  cases h with
  | denied _ hes => apply turn_quiet hes.talk
  | undone => exact turn_quiet fun _ => rfl
  | @committed request room room' response es es' _ hc hroom hadmits _ hroom' hresponse hes hes' =>
    have hvalid := hL.valid.valid hroom
    obtain ⟨hmembers, -⟩ := hroom'.spec hvalid hadmits
    have hlookup : service'.roomManager.rooms.lookup request.roomId = some room' := by
      rw [hservice, RoomManager.lookup_setRoom hroom, if_pos rfl]
    have hconnections : (room.enrol request.playerName (some c₀)).connections room.nextPlayerId
        = room'.connections room.nextPlayerId := by
      rw [Room.connections, Room.connections, hmembers]
    rw [hconnections] at hes'
    have htold := hes.talk (Frame.isTalk_eq_false (by decide) response)
    apply Turn.behind _ htold
    apply turn_broadcast hes' (fits_playerJoined _ _ hadmits.name_fits) rfl
      (nodup_listed hL' hlookup room.nextPlayerId)
    intro c hsame
    rw [listed_iff_ne hL' hlookup, hsame]
    constructor
    · rintro ⟨p, -, hp⟩
      exact ⟨p, hp⟩
    · rintro ⟨p, hp⟩
      -- Who was in the room before has another id than the new member.
      obtain ⟨room'', hroom'', hmem⟩ := room_of_seatOf hL hp
      rw [hroom, Option.some.injEq] at hroom''
      subst hroom''
      refine ⟨p, ?_, hp⟩
      rintro rfl
      apply hvalid.next_notMem hadmits.next_ne_zero hmem

theorem ResumeOutcome.turn {payload : Bytes} {now : Int} {c₀ : ConnId}
    (h : ResumeOutcome service c₀ payload now service' es) :
  Turn service service' es
  := by
  cases h with
  | denied _ hes => apply turn_quiet hes.talk
  | ignored => exact turn_quiet fun _ => rfl
  | undone => exact turn_quiet fun _ => rfl
  | @committed _ _ _ _ response _ _ _ _ _ _ _ _ hes =>
    apply turn_quiet (hes.talk (Frame.isTalk_eq_false (by decide) response))

theorem LeaveOutcome.turn {c₀ : ConnId} (hL : service.Represents L)
    (h : LeaveOutcome service c₀ service' es) :
  Turn service service' es
  := by
  cases h with
  | denied hes => apply turn_quiet hes.talk
  | @left token session room es es' hbinding hsession hconn hroom hes hes' =>
    apply Turn.behind _ (hes.talk (Frame.isTalk_eq_false (by decide) _))
    have hL' := hL.remove hsession hroom (lookup_erase_binding hL hbinding)
    refine turn_of_playerLeft hL' ?_ hes'
    rw [RoomManager.lookup_setRoom hroom, if_pos rfl]

/-- A chat event fits a frame. -/
theorem fits_chatEvent (r : UInt32) (p : UInt64) {message : Bytes}
    (h : message.length ≤ Protocol.maxChatMessageSize) :
  Codec.Fits ⟨MessageType.chatEvent.toU16,
    Protocol.appendU32 r ++ Protocol.appendU64 p ++ Protocol.appendText message⟩
  := by
  rw [Protocol.maxChatMessageSize] at h
  simp only [Codec.Fits, Protocol.appendU32, Protocol.appendU64_eq, Protocol.appendText,
    Protocol.appendU16, List.length_append, BigEndian.length_digits]
  omega

theorem ChatOutcome.turn {c₀ : ConnId} (hL : service.Represents L)
    (h : ChatOutcome service c₀ es) :
  Turn service service es
  := by
  cases h with
  | denied hes => apply turn_quiet hes.talk
  | @said _ session room _ message _ _ _ hroom _ _ hmessage hes =>
    apply turn_broadcast hes (fits_chatEvent _ _ hmessage) rfl (nodup_listed hL hroom 0)
    intro c _
    apply listed_iff hL hroom

theorem CommandOutcome.turn {c₀ : ConnId} {requestType : MessageType}
    (h : CommandOutcome service c₀ requestType service' es) :
  Turn service service' es
  := by
  cases h with
  | denied hes => apply turn_quiet hes.talk
  | collected => exact turn_quiet fun _ => rfl

theorem Removals.turn (h : Removals service service' es) (hL : service.Represents L) :
  Turn service service' es
  := by
  induction h generalizing L with
  | nil => exact turn_quiet fun _ => rfl
  | @cons first last token session room es es' hsession hoffline hroom hes _ ih =>
    have hL' := removed_represents hL hsession hoffline hroom
    have hlookup : (first.removed token session room).roomManager.rooms.lookup session.roomId
        = some (room.dismiss session.playerId) := by
      rw [removed, RoomManager.lookup_setRoom hroom, if_pos rfl]
    apply (turn_of_playerLeft hL' hlookup hes).append (ih hL')
    apply seatOf_removed hL hsession hoffline room

/-- Snapshots say nothing. -/
theorem talk_of_tick (hL : service.Represents L)
    (hes : Snapshots service.roomManager.tickRooms.1 es) (c : ConnId) :
  talk c es = []
  := by
  apply talk_eq_nil
  intro f hf
  obtain hnone | ⟨_, _, _, _, payload, -, -, -, -, -, hone⟩ := offeredTo_tick hL hes c
  · rw [hnone] at hf
    cases hf
  · rw [hone, List.mem_singleton] at hf
    rw [hf]
    apply Frame.isTalk_eq_false (by decide)

theorem TaskOutcome.turn {task : Task} (hL : service.Represents L)
    (h : TaskOutcome service task service' es) :
  Turn service service' es
  := by
  cases h with
  | idle => exact turn_quiet fun _ => rfl
  | join _ h => apply h.turn hL
  | resume h => apply h.turn
  | leave h => apply h.turn hL
  | chat h => apply h.turn hL
  | command h => apply h.turn
  | closed => exact turn_quiet fun _ => rfl
  | tick _ _ hes => apply turn_quiet (talk_of_tick hL hes)
  | timeouts h => apply h.turn hL

/-- A message that is neither empty nor too long is sent to the room of its player. -/
theorem handleChat_said (hL : service.Represents L) (answers : Answers) {payload : Bytes}
    {request : ChatRequest} (hseat : service.seatOf c = some (r, p))
    (hrequest : Protocol.decodeChatRequest payload = some request) (hne : request.message ≠ [])
    (hlen : request.message.length ≤ Protocol.maxChatMessageSize) :
  (service.handleChat answers (some c) payload).1 = service
    ∧ ∃ room, service.roomManager.rooms.lookup r = some room
      ∧ Broadcast ⟨MessageType.chatEvent.toU16, Protocol.appendU32 r ++ Protocol.appendU64 p
          ++ Protocol.appendText request.message⟩
        (room.connections 0) (service.handleChat answers (some c) payload).2
  := by
  obtain ⟨hunbound, -⟩
      | ⟨token, session, room, member, hbinding, hsession, -, hroom, hmember, -, hlookup⟩ :=
    lookupIdentity_cases hL answers c (show MessageType.chat ∈ requestTypes by decide)
  · rw [seatOf_of_notMem hunbound] at hseat
    cases hseat
  have hmem := AList.mem_iff_lookup.mpr ⟨member, hmember⟩
  rw [seatOf_of_binding hbinding hsession, Option.some.injEq, Session.seat,
    Prod.mk.injEq] at hseat
  obtain ⟨rfl, rfl⟩ := hseat
  have hmessage : ¬(request.message = []
      ∨ request.message.length > Protocol.maxChatMessageSize) := by
    rw [not_or, Nat.not_lt]
    exact ⟨hne, hlen⟩
  have hchat : service.roomManager.chat session.roomId session.playerId request.message
      = ⟨.success, session.roomId, session.playerId, room.connections 0⟩ := by
    rw [RoomManager.chat, if_neg hmessage, hroom]
    simp [Room.contains, hmem]
  have hencode : Protocol.encodeChatEvent session.roomId session.playerId request.message
      = some (Protocol.appendU32 session.roomId ++ Protocol.appendU64 session.playerId
        ++ Protocol.appendText request.message) := by
    rw [Protocol.encodeChatEvent, if_neg hmessage]
  obtain ⟨es, hbroadcast, hes⟩ := broadcastFrame_spec answers [] (room.connections 0)
    (show MessageType.chatEvent ≠ .stateSnapshot by decide)
    (Protocol.appendU32 session.roomId ++ Protocol.appendU64 session.playerId
      ++ Protocol.appendText request.message)
  rw [List.nil_append] at hbroadcast
  have hrun : service.handleChat answers (some c) payload = (service, es) := by
    rw [handleChat, hrequest]
    simp only [hlookup, hchat, ne_eq, not_true_eq_false, if_false, hencode, hbroadcast]
  rw [hrun]
  exact ⟨rfl, room, hroom, hes⟩

end RoomService

/-! ### The audience -/

/-- The service, and what the connections were told that members did since they took their
seats. -/
structure Audience where
  service : RoomService
  heard : ConnId → List Frame

namespace Audience

open RoomService

variable {audience audience' : Audience} {action : RoomService.Action}

/-- What a connection has heard behind an action. -/
def listen (audience : Audience) (action : RoomService.Action) (service' : RoomService)
    (c : ConnId) : List Frame :=
  if service'.seatOf c = audience.service.seatOf c then
    audience.heard c ++ talk c (Observed.events audience.service action)
  else
    []

def system : System Audience RoomService.Action where
  Initial audience := RoomService.system.Initial audience.service ∧ ∀ c, audience.heard c = []
  Step audience action audience' :=
    RoomService.system.Step audience.service action audience'.service
      ∧ ∀ c, audience'.heard c = audience.listen action audience'.service c

/-- The members of the forum are where the players of the connections are, and have heard what
the connections were told. -/
structure Mirrors (audience : Audience) (forum : Forum UInt32 ConnId Frame) : Prop where
  represents : ∃ L, audience.service.Represents L
  place : forum.place = audience.service.placeOf
  heard : forum.heard = audience.heard

/-- Every action is a turn. -/
theorem turn_of_step {service service' : RoomService} {L : Ledger} (hL : service.Represents L)
    (hstep : RoomService.system.Step service action service') :
  Turn service service' (Observed.events service action)
  := by
  cases action with
  | addRoom r capacity => exact turn_quiet fun _ => rfl
  | restore checkpoint now => exact turn_quiet fun _ => rfl
  | task task answers =>
    have houtcome := run_outcome hL answers task
    rw [← show service' = _ from hstep] at houtcome
    apply houtcome.turn hL
  | reorder => exact turn_quiet fun _ => rfl

/-- In a turn the messages are told, and then some take other seats. -/
theorem Mirrors.step {forum : Forum UInt32 ConnId Frame} (h : audience.Mirrors forum)
    (hstep : system.Step audience action audience') :
  ∃ forum', Forum.system.Leads forum forum' ∧ audience'.Mirrors forum'
  := by
  obtain ⟨L, hL⟩ := h.represents
  obtain ⟨hservice, hheard⟩ := hstep
  obtain ⟨said, hsaid⟩ := turn_of_step hL hservice
  obtain ⟨forum', hleads, hplace, htold⟩ := forum.leads_say said
  let moved : ConnId → Bool :=
    fun c => decide (audience'.service.seatOf c ≠ audience.service.seatOf c)
  use forum'.move moved audience'.service.placeOf
  use hleads.step (ℓ := ()) (.move moved _)
  constructor
  · apply RoomService.system_represents hL hservice
  · funext c
    rw [Forum.move]
    dsimp only
    split
    · rfl
    · next hmoved =>
      have hsame : audience'.service.seatOf c = audience.service.seatOf c := by
        simpa [moved] using hmoved
      rw [hplace, h.place, placeOf, placeOf, hsame]
  · funext c
    rw [Forum.move, hheard, listen]
    dsimp only
    by_cases hsame : audience'.service.seatOf c = audience.service.seatOf c
    · rw [if_neg (by simpa [moved] using hsame), if_pos hsame, htold, h.heard, h.place,
        hsaid c hsame]
    · rw [if_pos (by simpa [moved] using hsame), if_neg hsame]

/-- The audience of the service is a forum. -/
theorem mirrors_of_reachable (h : system.Reachable audience) :
  ∃ forum, Forum.system.Reachable forum ∧ audience.Mirrors forum
  := by
  apply h.simulate
  · rintro audience ⟨⟨reconnectTimeout, hservice⟩, hheard⟩
    have hplace : ∀ c, audience.service.placeOf c = none := by
      intro c
      rw [hservice, placeOf, seatOf_of_notMem (AList.notMem_empty c)]
      rfl
    use ⟨audience.service.placeOf, fun _ => [], audience.heard⟩
    use .initial ⟨hplace, fun _ => rfl, hheard⟩
    exact ⟨⟨_, hservice ▸ new_represents reconnectTimeout⟩, rfl, rfl⟩
  · intro audience action audience' forum hmirrors hstep
    apply hmirrors.step hstep

/-- What a player says in its room is told once to everyone who is connected in the room, the
player included, and to nobody else. -/
theorem chat_of_reachable (h : system.Reachable audience) {c : ConnId} {r : UInt32} {p : UInt64}
    (hc : audience.service.seatOf c = some (r, p)) {payload : Bytes} {request : ChatRequest}
    (hrequest : Protocol.decodeChatRequest payload = some request) (hne : request.message ≠ [])
    (hlen : request.message.length ≤ Protocol.maxChatMessageSize) {token : Bytes} {now : Int}
    {answers : Answers}
    (hstep : system.Step audience
      (.task (.frame (some c) MessageType.chat.toU16 payload token now) answers) audience')
    (c' : ConnId) :
  audience'.heard c' = audience.heard c'
    ++ if audience.service.placeOf c' = some r then
        [⟨MessageType.chatEvent.toU16, Protocol.appendU32 r ++ Protocol.appendU64 p
          ++ Protocol.appendText request.message⟩]
      else
        []
  := by
  obtain ⟨forum, -, hmirrors⟩ := mirrors_of_reachable h
  obtain ⟨L, hL⟩ := hmirrors.represents
  obtain ⟨hservice, hheard⟩ := hstep
  obtain ⟨hsame, room, hroom, hes⟩ := handleChat_said hL answers hc hrequest hne hlen
  have hrun : audience.service.run answers
      (.frame (some c) MessageType.chat.toU16 payload token now)
        = audience.service.handleChat answers (some c) payload := by
    rw [RoomService.run, handleFrameInLoop, MessageType.ofU16_toU16]
    rfl
  have hservice' : audience'.service = audience.service := by
    rw [show audience'.service = _ from hservice, hrun, hsame]
  rw [hheard, listen, hservice', if_pos rfl, Observed.events, hrun,
    hes.talk (fits_chatEvent r p hlen) rfl (nodup_listed hL hroom 0)]
  congr 1
  have hiff := (listed_iff hL hroom).trans (placeOf_eq_some_iff (c := c')).symm
  by_cases hmem : some c' ∈ room.connections 0
  · rw [if_pos hmem, if_pos (hiff.mp hmem)]
  · rw [if_neg hmem, if_neg fun hplace => hmem (hiff.mpr hplace)]

/-- The audience after a task, when every connection accepts what it is sent. -/
def run (audience : Audience) (task : Task) : Audience where
  service := (audience.service.run ⟨fun _ _ _ => true, fun _ _ => false⟩ task).1
  heard := audience.listen (.task task ⟨fun _ _ _ => true, fun _ _ => false⟩)
    (audience.service.run ⟨fun _ _ _ => true, fun _ _ => false⟩ task).1

theorem run_reachable (h : system.Reachable audience) (task : Task) :
  system.Reachable (audience.run task)
  := by
  have hstep : system.Step audience (.task task ⟨fun _ _ _ => true, fun _ _ => false⟩)
      (audience.run task) := ⟨rfl, fun _ => rfl⟩
  apply h.step trivial hstep

/-- Two players have joined a room, on the connections 7 and 8. -/
def gathered : Audience :=
  let audience : Audience := ⟨((RoomService.new 30000).addRoom true 1 2).2, fun _ => []⟩
  let audience := audience.run
    (.frame (some 7) MessageType.join.toU16 [0, 0, 0, 1, 0, 1, 65] [1] 0)
  audience.run (.frame (some 8) MessageType.join.toU16 [0, 0, 0, 1, 0, 1, 66] [2] 0)

theorem gathered_reachable : system.Reachable gathered := by
  have hnew : system.Reachable ⟨.new 30000, fun _ => []⟩ := .initial ⟨⟨30000, rfl⟩, fun _ => rfl⟩
  have hroom : system.Reachable ⟨((RoomService.new 30000).addRoom true 1 2).2, fun _ => []⟩ := by
    refine hnew.step (ℓ := .addRoom 1 2) trivial ⟨rfl, fun c => ?_⟩
    rw [listen]
    split <;> rfl
  apply run_reachable (run_reachable hroom _)

/-- The player on the connection 7 says hi. -/
def greeting : Task := .frame (some 7) MessageType.chat.toU16 [0, 2, 104, 105] [] 0

theorem gathered_chat :
  gathered.service.placeOf 8 = some 1
    ∧ (gathered.run greeting).heard 8 = gathered.heard 8
      ++ if gathered.service.placeOf 8 = some 1 then
          [⟨MessageType.chatEvent.toU16, Protocol.appendU32 1 ++ Protocol.appendU64 1
            ++ Protocol.appendText [104, 105]⟩]
        else
          []
  := by
  have hc : gathered.service.seatOf 7 = some (1, 1) := by decide +kernel
  have hrequest : Protocol.decodeChatRequest [0, 2, 104, 105] = some ⟨[104, 105]⟩ := rfl
  have hstep : system.Step gathered (.task greeting ⟨fun _ _ _ => true, fun _ _ => false⟩)
      (gathered.run greeting) := ⟨rfl, fun _ => rfl⟩
  use by decide +kernel
  apply chat_of_reachable gathered_reachable hc hrequest (by decide) (by decide) hstep

end Audience

end RoomServer
