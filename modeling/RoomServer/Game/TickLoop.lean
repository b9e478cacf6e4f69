import RoomServer.Game.RoomManager

/-!
# Ticking the rooms one after the other

The loop of `tickRooms` goes over the table of rooms in the order of the table, which is any
order, and ticks the running rooms in their places.  Whatever the order, each room is ticked as
if it were alone, and the table keeps its order.
-/

namespace RoomServer

namespace RoomManager

/-- One turn of the loop: the room under the id is ticked if it runs, and there is a result if
it succeeds. -/
def tickTurn (state : List TickResult × RoomManager) (roomId : UInt32) :
    List TickResult × RoomManager :=
  let (results, manager) := state
  match manager.rooms.lookup roomId with
  | none => (results, manager)
  | some room =>
    if room.state ≠ .running then
      (results, manager)
    else
      let (tickResult, room) := room.tick
      let manager := manager.setRoom roomId room
      if tickResult.state ≠ .success then
        (results, manager)
      else
        (results ++ [⟨room.roomId, tickResult.tickId, tickResult.processedCommands,
          tickResult.successfulCommands, tickResult.snapshot, room.connections 0⟩], manager)

/-- The loop over the rooms in an order. -/
def tickLoop (manager : RoomManager) (order : List UInt32) : List TickResult × RoomManager :=
  order.foldl tickTurn ([], manager)

variable {manager : RoomManager}

/-- A turn ticks the room in its place, and adds what there is to tell. -/
theorem tickTurn_eq {r : UInt32} {room : Room} (hroom : manager.rooms.lookup r = some room)
    (results : List TickResult) :
  tickTurn (results, manager) r
    = (results ++ (tickResult room).toList, manager.setRoom r (tickRoom room))
  := by
  rw [tickTurn, tickResult, tickRoom]
  simp only [hroom]
  by_cases hrunning : room.state = .running
  · have hstate : room.stateMachine.state = .running := hrunning
    simp only [hrunning, ne_eq, not_true_eq_false, if_false, Room.tick, hstate]
    rfl
  · simp only [hrunning, ne_eq, not_false_eq_true, if_true, Option.toList_none, List.append_nil,
      setRoom_lookup hroom]

/-- The loop over some of the rooms ticks these, and adds what there is to tell of them. -/
theorem foldl_tickTurn {order : List UInt32} (hnodup : order.Nodup)
    (hmem : ∀ r ∈ order, r ∈ manager.rooms) (results : List TickResult) :
  (order.foldl tickTurn (results, manager)).1
      = results ++ order.filterMap (fun r => (manager.rooms.lookup r).bind tickResult)
    ∧ (order.foldl tickTurn (results, manager)).2.rooms.keys = manager.rooms.keys
    ∧ ∀ r, (order.foldl tickTurn (results, manager)).2.rooms.lookup r
      = if r ∈ order then (manager.rooms.lookup r).map tickRoom else manager.rooms.lookup r
  := by
  induction order generalizing manager results with
  | nil => exact ⟨(List.append_nil results).symm, rfl, fun r => rfl⟩
  | cons r₀ order ih =>
    obtain ⟨hnotMem, hnodup⟩ := List.nodup_cons.mp hnodup
    obtain ⟨hr₀, hmem⟩ := List.forall_mem_cons.mp hmem
    obtain ⟨room, hroom⟩ := AList.mem_iff_lookup.mp hr₀
    have hlookup := lookup_setRoom hroom (tickRoom room)
    have hkeys : (manager.setRoom r₀ (tickRoom room)).rooms.keys = manager.rooms.keys :=
      AList.keys_assign manager.rooms r₀ _
    have hmem' : ∀ r ∈ order, r ∈ (manager.setRoom r₀ (tickRoom room)).rooms :=
      fun r hr => AList.mem_assign.mpr (hmem r hr)
    obtain ⟨hresults, hsame, hrest⟩ := ih hnodup hmem' (results ++ (tickResult room).toList)
    rw [List.foldl_cons, tickTurn_eq hroom]
    refine ⟨?_, hsame.trans hkeys, ?_⟩
    · rw [hresults, List.append_assoc, List.filterMap_cons, hroom, Option.bind_some]
      have hothers : order.filterMap
            (fun r => ((manager.setRoom r₀ (tickRoom room)).rooms.lookup r).bind tickResult)
          = order.filterMap (fun r => (manager.rooms.lookup r).bind tickResult) := by
        apply List.filterMap_congr
        intro r hr
        have hne : r ≠ r₀ := by
          rintro rfl
          apply hnotMem hr
        rw [hlookup, if_neg hne]
      rw [hothers]
      cases tickResult room <;> rfl
    · intro r
      rw [hrest, hlookup]
      by_cases hr : r = r₀
      · rw [if_neg (by rwa [hr]), if_pos hr, hr, if_pos List.mem_cons_self, hroom]
        rfl
      · simp only [hr, if_false, List.mem_cons, false_or]

/-- In any order of the table each room is ticked as if it were alone. -/
theorem tickLoop_spec {order : List UInt32} (horder : order.Perm manager.rooms.keys) :
  (manager.tickLoop order).1
      = order.filterMap (fun r => (manager.rooms.lookup r).bind tickResult)
    ∧ (manager.tickLoop order).2 = manager.tickRooms.2
  := by
  have hmem : ∀ r ∈ order, r ∈ manager.rooms := fun r hr => horder.mem_iff.mp hr
  obtain ⟨hresults, hkeys, hlookup⟩ :=
    foldl_tickTurn (horder.nodup_iff.mpr manager.rooms.keys_nodup) hmem []
  use hresults
  have hrooms : (manager.tickLoop order).2.rooms = manager.tickRooms.2.rooms := by
    apply AList.ext_of_keys
    · rw [tickLoop, hkeys]
      apply (AList.keys_mapValues tickRoom manager.rooms).symm
    · intro r
      rw [tickLoop, hlookup, lookup_tickRooms]
      split
      · rfl
      · next hr =>
        have hnone : manager.rooms.lookup r = none :=
          AList.lookup_eq_none.mpr fun hmem => hr (horder.mem_iff.mpr hmem)
        rw [hnone]
        rfl
  apply congrArg RoomManager.mk hrooms

/-- In the order of the table the loop is `tickRooms`. -/
theorem tickLoop_keys (manager : RoomManager) :
  manager.tickLoop manager.rooms.keys = manager.tickRooms
  := by
  obtain ⟨hresults, hmanager⟩ := tickLoop_spec (List.Perm.refl manager.rooms.keys)
  apply Prod.ext
  · rw [hresults, tickRooms, AList.values_eq_filterMap, List.filterMap_filterMap]
  · exact hmanager

/-! ### Each room by itself -/

/-- What there is to tell of the tick of a running room. -/
theorem tickResult_of_running {room : Room} (h : room.state = .running) :
  tickResult room = some ⟨room.roomId, room.tick.1.tickId, room.tick.1.processedCommands,
    room.tick.1.successfulCommands, room.tick.1.snapshot, room.connections 0⟩
  := by
  have hstate : room.stateMachine.state = .running := h
  simp only [tickResult, h, ne_eq, not_true_eq_false, if_false, Room.tick, hstate]
  rfl

/-- The results are for the rooms what the rooms have become: a running room has been ticked by
itself and has one result, and nothing has become of the other rooms. -/
structure TicksApart (manager : RoomManager) (results : List TickResult)
    (manager' : RoomManager) : Prop where
  running : ∀ r room, manager.rooms.lookup r = some room → room.state = .running →
    manager'.rooms.lookup r = some room.tick.2
      ∧ results.filter (fun result => result.roomId = r)
        = [⟨r, room.tick.1.tickId, room.tick.1.processedCommands,
          room.tick.1.successfulCommands, room.tick.1.snapshot, room.connections 0⟩]
  idle : ∀ r room, manager.rooms.lookup r = some room → room.state ≠ .running →
    manager'.rooms.lookup r = some room
      ∧ results.filter (fun result => result.roomId = r) = []
  absent : ∀ r, manager.rooms.lookup r = none →
    manager'.rooms.lookup r = none ∧ results.filter (fun result => result.roomId = r) = []

/-- When the results carry the ids they are for, each id has its own. -/
theorem filter_filterMap_roomId {result : UInt32 → Option TickResult}
    (hid : ∀ r x, result r = some x → x.roomId = r) {order : List UInt32} (hnodup : order.Nodup)
    (r : UInt32) :
  (order.filterMap result).filter (fun x => x.roomId = r)
    = if r ∈ order then (result r).toList else []
  := by
  induction order with
  | nil => rfl
  | cons r₀ order ih =>
    obtain ⟨hnotMem, hnodup⟩ := List.nodup_cons.mp hnodup
    have hhead : (result r₀).toList.filter (fun x => x.roomId = r)
        = if r = r₀ then (result r₀).toList else [] := by
      cases hx : result r₀ with
      | none => simp
      | some x =>
        rw [Option.toList_some, List.filter_singleton, hid r₀ x hx]
        by_cases hr : r = r₀
        · rw [if_pos hr, decide_eq_true hr.symm]
          rfl
        · rw [if_neg hr, decide_eq_false (Ne.symm hr)]
          rfl
    have hcons : (r₀ :: order).filterMap result
        = (result r₀).toList ++ order.filterMap result := by
      rw [List.filterMap_cons]
      cases result r₀ <;> rfl
    rw [hcons, List.filter_append, hhead, ih hnodup]
    by_cases hr : r = r₀
    · subst hr
      rw [if_pos rfl, if_neg hnotMem, if_pos List.mem_cons_self, List.append_nil]
    · simp only [hr, if_false, List.nil_append, List.mem_cons, false_or]

/-- In any order of the table the rooms are ticked each by itself. -/
theorem Valid.ticksApart (h : manager.Valid) {order : List UInt32}
    (horder : order.Perm manager.rooms.keys) :
  TicksApart manager (manager.tickLoop order).1 (manager.tickLoop order).2
  := by
  obtain ⟨hresults, hmanager⟩ := tickLoop_spec horder
  have hid : ∀ r x, (manager.rooms.lookup r).bind tickResult = some x → x.roomId = r := by
    intro r x hx
    obtain ⟨room, hroom, hresult⟩ := Option.bind_eq_some_iff.mp hx
    rw [(tickResult_eq_some hresult).2.1, h.key hroom]
  have hown : ∀ r, (manager.tickLoop order).1.filter (fun result => result.roomId = r)
      = ((manager.rooms.lookup r).bind tickResult).toList := by
    intro r
    rw [hresults, filter_filterMap_roomId hid (horder.nodup_iff.mpr manager.rooms.keys_nodup)]
    split
    · rfl
    · next hr =>
      have hnone : manager.rooms.lookup r = none :=
        AList.lookup_eq_none.mpr fun hmem => hr (horder.mem_iff.mpr hmem)
      rw [hnone]
      rfl
  constructor
  · intro r room hroom hrunning
    constructor
    · rw [hmanager, lookup_tickRooms, hroom, Option.map_some, tickRoom_eq]
    · rw [hown, hroom, Option.bind_some, tickResult_of_running hrunning, h.key hroom]
      rfl
  · intro r room hroom hidle
    constructor
    · rw [hmanager, lookup_tickRooms, hroom, Option.map_some, tickRoom, if_pos hidle]
    · rw [hown, hroom, Option.bind_some, tickResult, if_pos hidle]
      rfl
  · intro r hnone
    constructor
    · rw [hmanager, lookup_tickRooms, hnone]
      rfl
    · rw [hown, hnone]
      rfl

end RoomManager

end RoomServer
