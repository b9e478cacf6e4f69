import RoomServer.Service.Offers

/-!
# What a connection is told

The loops of the connections are others than that of the service, so that a handler is over
before a connection answers to it.  The frames that the handlers offer to a connection fall into
periods, each with the player the connection is bound to, or with none.

The period of a player is `Orderly` when it begins with the one response that binds it and goes
on with messages of its room only, among which the snapshots show the player and exactly the
members of the room, at later and later ticks; that of no player when it has only errors and
farewells.  In small rooms every period is orderly.
-/

namespace RoomServer

/-! ### Periods -/

/-- The frame is about a room: it is no error and no answer to a heartbeat. -/
def Frame.IsRoom (f : Frame) : Prop :=
  f.type ≠ MessageType.error.toU16 ∧ f.type ≠ MessageType.heartbeatAck.toU16

instance : DecidablePred Frame.IsRoom :=
  fun f => inferInstanceAs (Decidable (f.type ≠ _ ∧ f.type ≠ _))

/-- A frame that was offered by an action, with the service after the action. -/
structure Offer where
  frame : Frame
  service : RoomService

/-- The offer is a message of the room `r` to the player `p`: what a member did, or a snapshot
of the room as it is. -/
def Offer.InRoom (r : UInt32) (p : UInt64) (offer : Offer) : Prop :=
  Talks r offer.frame ∨ ∃ room, offer.service.roomManager.rooms.lookup r = some room
    ∧ Shows r p room offer.frame

/-- The offers while the connection had the seat, or none. -/
structure Period where
  seat : Option Seat
  offers : List Offer

namespace Period

/-- The offers about a room. -/
def roomOffers (period : Period) : List Offer :=
  period.offers.filter fun offer => offer.frame.IsRoom

/-- The ticks of the offers. -/
def ticks (period : Period) : List UInt64 := period.offers.filterMap fun offer => offer.frame.tick

/-- Without a player there are errors and farewells.  With a player, the first offer about a
room is the one response that binds the player, the others are messages of its room, and the
ticks increase. -/
def Orderly (period : Period) : Prop :=
  match period.seat with
  | none => ∀ offer ∈ period.offers,
      offer.frame.type ∈ RoomService.farewellTypes.map MessageType.toU16
  | some (r, p) =>
    (∃ first later, period.roomOffers = first :: later ∧ Opens r p first.frame
      ∧ ∀ offer ∈ later, offer.InRoom r p)
    ∧ period.ticks.Pairwise fun tick tick' => tick < tick'

/-- The period is orderly, and it is that of the seat the connection has in the service, whose
room is not behind its ticks. -/
structure Current (period : Period) (service : RoomService) (c : ConnId) : Prop where
  seat : period.seat = service.seatOf c
  orderly : period.Orderly
  ticks_le : ∀ r p room, period.seat = some (r, p) →
    service.roomManager.rooms.lookup r = some room → ∀ tick ∈ period.ticks, tick ≤ room.tickId

variable {period : Period} {service service' : RoomService} {c : ConnId} {r : UInt32} {p : UInt64}
  {f : Frame} {fs : List Frame}

theorem roomOffers_append (seat : Option Seat) (offers offers' : List Offer) :
  roomOffers ⟨seat, offers ++ offers'⟩
    = roomOffers ⟨seat, offers⟩ ++ roomOffers ⟨seat, offers'⟩
  := List.filter_append offers offers'

theorem ticks_append (seat : Option Seat) (offers offers' : List Offer) :
  ticks ⟨seat, offers ++ offers'⟩ = ticks ⟨seat, offers⟩ ++ ticks ⟨seat, offers'⟩
  := List.filterMap_append

@[simp]
theorem roomOffers_singleton (seat : Option Seat) (hf : f.IsRoom) :
  roomOffers ⟨seat, [⟨f, service⟩]⟩ = [⟨f, service⟩]
  := by simp [roomOffers, hf]

theorem mem_ticks {seat : Option Seat} {tick : UInt64} :
  tick ∈ ticks ⟨seat, fs.map fun f => ⟨f, service⟩⟩ ↔ ∃ f ∈ fs, f.tick = some tick
  := by simp [ticks]

/-- A period goes on with messages of the room, of which none has a tick, or the only one is
that of the latest tick. -/
theorem Current.goes_on {seat : Seat} {room room' : Room} {offers offers' : List Offer}
    (h : Current ⟨some seat, offers⟩ service c) (hseat : service'.seatOf c = some seat)
    (hroom : service.roomManager.rooms.lookup seat.1 = some room)
    (hroom' : service'.roomManager.rooms.lookup seat.1 = some room')
    (htick : room.tickId ≤ room'.tickId)
    (hoffers : ∀ offer ∈ roomOffers ⟨some seat, offers'⟩, offer.InRoom seat.1 seat.2)
    (hticks : ticks ⟨some seat, offers'⟩ = []
      ∨ ticks ⟨some seat, offers'⟩ = [room'.tickId] ∧ room.tickId < room'.tickId) :
  Current ⟨some seat, offers ++ offers'⟩ service' c
  := by
  obtain ⟨⟨first, later, hfirst, hopens, hlater⟩, hincreasing⟩ := h.orderly
  have hbehind : ∀ tick ∈ ticks ⟨some seat, offers⟩, tick ≤ room.tickId :=
    h.ticks_le seat.1 seat.2 room rfl hroom
  refine ⟨hseat.symm, ⟨⟨first, later ++ roomOffers ⟨some seat, offers'⟩, ?_, hopens, ?_⟩, ?_⟩, ?_⟩
  · rw [roomOffers_append, hfirst, List.cons_append]
  · intro offer hoffer
    rcases List.mem_append.mp hoffer with hoffer | hoffer
    · apply hlater offer hoffer
    · apply hoffers offer hoffer
  · rw [ticks_append]
    rcases hticks with hnone | ⟨hone, hlt⟩
    · rw [hnone, List.append_nil]
      exact hincreasing
    · rw [hone, List.pairwise_append]
      refine ⟨hincreasing, List.pairwise_singleton _ _, ?_⟩
      intro tick hmem tick' hmem'
      rw [List.mem_singleton] at hmem'
      rw [hmem']
      apply UInt64.lt_of_le_of_lt (hbehind tick hmem) hlt
  · rintro r p room'' ⟨⟩ hroom'' tick hmem
    rw [hroom', Option.some.injEq] at hroom''
    subst hroom''
    rw [ticks_append] at hmem
    rcases List.mem_append.mp hmem with hmem | hmem
    · apply UInt64.le_trans (hbehind tick hmem) htick
    · rcases hticks with hnone | ⟨hone, -⟩
      · rw [hnone] at hmem
        cases hmem
      · rw [hone, List.mem_singleton] at hmem
        rw [hmem]
        apply UInt64.le_refl _

end Period

theorem isRoom_of_notMem {type : MessageType} (h : type ∉ [MessageType.error, .heartbeatAck])
    (payload : Bytes) :
  Frame.IsRoom ⟨type.toU16, payload⟩
  := by
  rw [Frame.IsRoom, ne_eq, ne_eq, MessageType.toU16_inj, MessageType.toU16_inj]
  simpa using h

theorem Opens.isRoom {r : UInt32} {p : UInt64} {f : Frame} (h : Opens r p f) : f.IsRoom := by
  cases h <;> exact isRoom_of_notMem (by decide) _

theorem Shows.isRoom {r : UInt32} {p : UInt64} {room : Room} {f : Frame}
    (h : Shows r p room f) :
  f.IsRoom
  := by
  rw [Frame.IsRoom, h.type_eq]
  decide

theorem Shows.tick_eq {r : UInt32} {p : UInt64} {room : Room} {f : Frame}
    (h : Shows r p room f) :
  f.tick = some room.tickId
  := by
  obtain ⟨states, hparse, -⟩ := h.parse
  rw [Frame.tick, h.type_eq, MessageType.ofU16_toU16]
  dsimp only
  rw [hparse]
  rfl

/-! ### Conversations -/

/-- The service, with the periods of a connection, the latest first. -/
structure Conversation where
  service : RoomService
  periods : List Period

namespace Conversation

/-- The periods after some offers to a connection that now has the seat: the latest goes on if
it had the same seat, and another begins otherwise. -/
def note (seat : Option Seat) (offers : List Offer) : List Period → List Period
  | [] => [⟨seat, offers⟩]
  | period :: periods =>
    if period.seat = seat then
      ⟨seat, period.offers ++ offers⟩ :: periods
    else
      ⟨seat, offers⟩ :: period :: periods

/-- The service and what the connection `c` is told. -/
def system (c : ConnId) : System Conversation RoomService.Action where
  Initial conversation :=
    RoomService.system.Initial conversation.service ∧ conversation.periods = [⟨none, []⟩]
  Step conversation action conversation' :=
    RoomService.system.Step conversation.service action conversation'.service
      ∧ conversation'.periods = note (conversation'.service.seatOf c)
        ((offeredTo c (Observed.events conversation.service action)).map
          fun f => ⟨f, conversation'.service⟩)
        conversation.periods

/-- The rooms have 101 places at most, and no room that is to tick has used up its ticks. -/
def Bounded (conversation : Conversation) (action : RoomService.Action) : Prop :=
  RoomService.Small conversation.service.roomManager
    ∧ ∀ expirations answers, action = .task (.tick expirations) answers → expirations ≠ 0 →
      RoomService.Lasting conversation.service.roomManager

variable {conversation : Conversation} {service service' : RoomService} {L : Ledger}
  {c : ConnId} {period : Period} {periods : List Period} {fs : List Frame}

/-- What a connection hears of an action. -/
theorem hears_of_step {action : RoomService.Action} (hL : conversation.service.Represents L)
    (hbounded : conversation.Bounded action)
    (hstep : RoomService.system.Step conversation.service action service') (c : ConnId) :
  RoomService.Hears conversation.service service' c
    (offeredTo c (Observed.events conversation.service action))
  := by
  cases action with
  | addRoom r capacity =>
    have hservice : service' = (conversation.service.addRoom true r capacity).2 := hstep
    have honward : RoomService.Onward conversation.service.roomManager service'.roomManager := by
      intro r' room hroom
      rw [hservice]
      refine ⟨room, ?_, UInt64.le_refl _⟩
      obtain heq | ⟨hnew, heq⟩ := conversation.service.roomManager.addRoom_cases r capacity
      · apply (congrArg (fun manager => manager.rooms.lookup r') heq).trans hroom
      · refine (congrArg (fun manager => manager.rooms.lookup r') heq).trans ?_
        have hne : r' ≠ r := by
          rintro rfl
          apply hnew (AList.mem_iff_lookup.mpr ⟨room, hroom⟩)
        apply (AList.lookup_insert_ne hne).trans hroom
    have hseat : service'.seatOf c = conversation.service.seatOf c := by
      rw [hservice]
      rfl
    apply RoomService.Chatter.hears ⟨hseat, honward, by simp [Observed.events, offeredTo]⟩ hL
  | restore checkpoint now =>
    obtain ⟨-, -, -, roomManager, sessionManager, -, hsessions, heq⟩ :=
      RoomService.restoreCheckpoint_eq_true_iff.mp hstep
    apply RoomService.Hears.quiet _ (by simp [Observed.events, offeredTo])
    apply RoomService.seatOf_of_notMem
    rw [heq, (SessionManager.restoreCheckpoint_spec hsessions).1]
    apply AList.notMem_empty c
  | task task answers =>
    have houtcome := RoomService.run_outcome hL answers task
    rw [← show service' = _ from hstep] at houtcome
    apply houtcome.hears hL hbounded.1
    rintro expirations rfl
    apply hbounded.2 expirations answers rfl
  | reorder =>
    have hreordered : conversation.service.Reordered service' := hstep
    have honward : RoomService.Onward conversation.service.roomManager service'.roomManager := by
      intro r room hroom
      obtain ⟨room', hlookup, members, players, -, -, rfl⟩ :=
        Option.exists_right_of_rel (hreordered.rooms r) hroom
      exact ⟨_, hlookup, UInt64.le_refl _⟩
    have hseat : service'.seatOf c = conversation.service.seatOf c := by
      apply RoomService.seatOf_congr
      · apply (hreordered.bindings c).symm
      · intro t _
        rw [← hreordered.sessions t]
    apply RoomService.Chatter.hears ⟨hseat, honward, by simp [Observed.events, offeredTo]⟩ hL

/-- The offers of an action that gives the connection another seat begin a period. -/
theorem current_of_begins (h : RoomService.Hears service service' c fs)
    (hne : service'.seatOf c ≠ service.seatOf c) :
  Period.Current ⟨service'.seatOf c, fs.map fun f => ⟨f, service'⟩⟩ service' c
  := by
  cases h with
  | quiet hseat hfarewells =>
    rw [hseat]
    refine ⟨hseat.symm, ?_, by rintro r p room ⟨⟩⟩
    intro offer hoffer
    obtain ⟨f, hf, rfl⟩ := List.mem_map.mp hoffer
    apply hfarewells f hf
  | @opens r p room f hbefore hseat hroom hopens htick =>
    rw [hseat]
    refine ⟨hseat.symm, ⟨⟨⟨f, service'⟩, [], ?_, hopens, by simp⟩, ?_⟩, ?_⟩
    · apply Period.roomOffers_singleton _ hopens.isRoom
    · rw [Period.ticks, List.map_singleton, List.filterMap_cons]
      split <;> simp
    · rintro r' p' room' ⟨⟩ hroom' tick hmem
      rw [hroom, Option.some.injEq] at hroom'
      subst hroom'
      obtain ⟨f', hf', hsome⟩ := Period.mem_ticks.mp hmem
      rw [List.mem_singleton] at hf'
      subst hf'
      apply htick tick hsome
  | talks hbefore hseat => exact absurd (hseat.trans hbefore.symm) hne
  | shows hbefore hseat => exact absurd (hseat.trans hbefore.symm) hne

/-- The offers of an action that leaves the connection its seat go on with the period. -/
theorem current_of_goes_on (h : RoomService.Hears service service' c fs)
    (heq : service'.seatOf c = service.seatOf c) (hcurrent : period.Current service c) :
  Period.Current ⟨service'.seatOf c, period.offers ++ fs.map fun f => ⟨f, service'⟩⟩ service' c
  := by
  have hperiod : period = ⟨service.seatOf c, period.offers⟩ := by rw [← hcurrent.seat]
  rw [hperiod] at hcurrent
  cases h with
  | quiet hseat hfarewells =>
    rw [heq] at hseat
    rw [hseat] at hcurrent
    rw [heq, hseat]
    refine ⟨(heq.trans hseat).symm, ?_, by rintro r p room ⟨⟩⟩
    intro offer hoffer
    rcases List.mem_append.mp hoffer with hoffer | hoffer
    · apply hcurrent.orderly offer hoffer
    · obtain ⟨f, hf, rfl⟩ := List.mem_map.mp hoffer
      apply hfarewells f hf
  | opens hbefore hseat =>
    rw [hbefore, hseat] at heq
    cases heq
  | @talks r p room room' fs hbefore hseat hroom hroom' htick htalks =>
    rw [hbefore] at hcurrent
    rw [hseat]
    apply hcurrent.goes_on hseat hroom hroom' htick
    · intro offer hoffer
      obtain ⟨hmem, hisRoom⟩ := List.mem_filter.mp hoffer
      obtain ⟨f, hf, rfl⟩ := List.mem_map.mp hmem
      rcases htalks f hf with herror | htalks
      · exact absurd herror (of_decide_eq_true hisRoom).1
      · exact .inl htalks
    · left
      apply List.eq_nil_iff_forall_not_mem.mpr
      intro tick hmem
      obtain ⟨f, hf, hsome⟩ := Period.mem_ticks.mp hmem
      rcases htalks f hf with herror | htalks
      · rw [tick_eq_none_of_error herror] at hsome
        cases hsome
      · rw [htalks.tick_eq_none] at hsome
        cases hsome
  | @shows r p room room' f hbefore hseat hroom hroom' htick hshows =>
    rw [hbefore] at hcurrent
    rw [hseat]
    apply hcurrent.goes_on hseat hroom hroom' (UInt64.le_of_lt htick)
    · rw [List.map_singleton, Period.roomOffers_singleton _ hshows.isRoom]
      intro offer hoffer
      rw [List.mem_singleton] at hoffer
      rw [hoffer]
      exact .inr ⟨room', hroom', hshows⟩
    · right
      refine ⟨?_, htick⟩
      simp [Period.ticks, hshows.tick_eq]

/-- The latest period is that of the seat the connection has, and the earlier ones are orderly. -/
structure Inv (c : ConnId) (conversation : Conversation) : Prop where
  represents : ∃ L, conversation.service.Represents L
  periods : ∃ period earlier, conversation.periods = period :: earlier
    ∧ period.Current conversation.service c ∧ ∀ period' ∈ earlier, period'.Orderly

theorem inv_of_step {action : RoomService.Action} {conversation' : Conversation}
    (h : conversation.Inv c) (hbounded : conversation.Bounded action)
    (hstep : (system c).Step conversation action conversation') :
  conversation'.Inv c
  := by
  obtain ⟨⟨L, hL⟩, period, earlier, hperiods, hcurrent, hearlier⟩ := h
  obtain ⟨hservice, hnote⟩ := hstep
  have hhears := hears_of_step hL hbounded hservice c
  refine ⟨RoomService.system_represents hL hservice, ?_⟩
  rw [hperiods, note] at hnote
  by_cases heq : period.seat = conversation'.service.seatOf c
  · rw [if_pos heq] at hnote
    rw [hcurrent.seat] at heq
    exact ⟨_, _, hnote, current_of_goes_on hhears heq.symm hcurrent, hearlier⟩
  · rw [if_neg heq] at hnote
    rw [hcurrent.seat] at heq
    exact ⟨_, _, hnote, current_of_begins hhears (Ne.symm heq),
      List.forall_mem_cons.mpr ⟨hcurrent.orderly, hearlier⟩⟩

/-- In every run in which the rooms are small and no room runs out of ticks, every period of a
connection is orderly, and the latest is that of the player the connection is bound to. -/
theorem orderly_of_reachable (h : (system c).ReachableBy Bounded conversation) :
  (∀ period ∈ conversation.periods, period.Orderly)
    ∧ ∃ period earlier, conversation.periods = period :: earlier
      ∧ period.seat = conversation.service.seatOf c
  := by
  have hinv : conversation.Inv c := by
    apply h.invariant
    · rintro ⟨service, periods⟩ ⟨⟨reconnectTimeout, rfl⟩, hperiods⟩
      have hL := RoomService.new_represents reconnectTimeout
      have hseat : (RoomService.new reconnectTimeout).seatOf c = none :=
        RoomService.seatOf_of_notMem (AList.notMem_empty c)
      refine ⟨⟨_, hL⟩, ⟨none, []⟩, [], hperiods, ⟨hseat.symm, ?_, ?_⟩, by simp⟩
      · intro offer hoffer
        cases hoffer
      · rintro r p room ⟨⟩
    · intro conversation action conversation' hinv hbounded hstep
      apply inv_of_step hinv hbounded hstep
  obtain ⟨-, period, earlier, hperiods, hcurrent, hearlier⟩ := hinv
  rw [hperiods]
  refine ⟨List.forall_mem_cons.mpr ⟨hcurrent.orderly, hearlier⟩, period, earlier, rfl, ?_⟩
  apply hcurrent.seat

/-- The conversation after a task, when every connection accepts what it is sent. -/
def run (c : ConnId) (conversation : Conversation) (task : Task) : Conversation :=
  let outcome := conversation.service.run ⟨fun _ _ _ => true, fun _ _ => false⟩ task
  ⟨outcome.1, note (outcome.1.seatOf c) ((offeredTo c outcome.2).map fun f => ⟨f, outcome.1⟩)
    conversation.periods⟩

/-- The conversation of the connection 7 after a player has joined a room for one on it, and the
room has ticked twice. -/
def played : Conversation :=
  let conversation : Conversation := ⟨((RoomService.new 30000).addRoom true 1 1).2, [⟨none, []⟩]⟩
  let conversation := conversation.run 7
    (.frame (some 7) MessageType.join.toU16 [0, 0, 0, 1, 0, 1, 65] [1] 0)
  (conversation.run 7 (.tick 1)).run 7 (.tick 1)

/-- A task of a service with small rooms that have ticks left keeps a conversation reachable. -/
theorem run_reachable {task : Task} (hreachable : (system c).ReachableBy Bounded conversation)
    (h : ∀ room ∈ conversation.service.roomManager.rooms.values, room.capacity ≤ 101
      ∧ (room.stateMachine.state = .running → room.tickId ≠ 0xffffffffffffffff)) :
  (system c).ReachableBy Bounded (conversation.run c task)
  := by
  refine hreachable.step (ℓ := .task task ⟨fun _ _ _ => true, fun _ _ => false⟩) ?_ ⟨rfl, rfl⟩
  constructor
  · intro r room hroom
    apply (h room (AList.mem_values.mpr ⟨r, hroom⟩)).1
  · intro _ _ _ _ r room hroom
    apply (h room (AList.mem_values.mpr ⟨r, hroom⟩)).2

theorem played_reachable :
  (system 7).ReachableBy Bounded played
  := by
  have hinit : (system 7).ReachableBy Bounded ⟨.new 30000, [⟨none, []⟩]⟩ :=
    .initial ⟨⟨30000, rfl⟩, rfl⟩
  have hempty : (RoomService.new 30000).roomManager.rooms = ∅ := rfl
  have hroom : (system 7).ReachableBy Bounded
      ⟨((RoomService.new 30000).addRoom true 1 1).2, [⟨none, []⟩]⟩ := by
    refine hinit.step (ℓ := .addRoom 1 1) ?_ ⟨rfl, rfl⟩
    constructor
    · intro r room hroom
      rw [hempty] at hroom
      cases hroom
    · rintro _ _ ⟨⟩
  apply run_reachable (run_reachable (run_reachable hroom (by decide +kernel))
    (by decide +kernel)) (by decide +kernel)

theorem played_orderly :
  (played.periods.map fun period => (period.seat, period.ticks))
      = [(some (1, 1), [1, 2]), (none, [])]
    ∧ ∀ period ∈ played.periods, period.Orderly
  := ⟨by decide +kernel, (orderly_of_reachable played_reachable).1⟩

end Conversation

end RoomServer
