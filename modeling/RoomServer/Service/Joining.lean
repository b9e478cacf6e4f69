import RoomServer.Service.Runs

/-!
# Joining and resuming as a whole

A join changes the rooms, the sessions and the bindings, and so does a resume.  Either is
committed in all three, or leaves all three as they were, up to an id that a room gave in vain.
It follows that a full room never waits between two tasks, as long as no room is restored that
does: the player that takes the last place starts the room or is taken out of it again.
-/

namespace RoomServer

namespace RoomManager

/-- The rooms that wait have places left, if they have places at all. -/
def Unfilled (manager : RoomManager) : Prop :=
  ∀ r room, manager.rooms.lookup r = some room → room.stateMachine.state = .waiting →
    0 < room.capacity.toNat → room.members.size < room.capacity.toNat

variable {manager : RoomManager} {r : UInt32} {room room' : Room}

theorem Unfilled.setRoom (h : manager.Unfilled) (hroom : manager.rooms.lookup r = some room)
    (hroom' : room'.stateMachine.state = .waiting → 0 < room'.capacity.toNat →
      room'.members.size < room'.capacity.toNat) :
  (manager.setRoom r room').Unfilled
  := by
  intro r' room'' hr
  rw [lookup_setRoom hroom] at hr
  split at hr
  · cases hr
    exact hroom'
  · apply h r' room'' hr

/-- A change of a room that adds no member. -/
theorem Unfilled.keep (h : manager.Unfilled) (hroom : manager.rooms.lookup r = some room)
    (hstate : room'.stateMachine = room.stateMachine) (hcapacity : room'.capacity = room.capacity)
    (hsize : room'.members.size ≤ room.members.size) :
  (manager.setRoom r room').Unfilled
  := by
  apply h.setRoom hroom
  rw [hstate, hcapacity]
  intro hwaiting hplaces
  apply Nat.lt_of_le_of_lt hsize (h r room hroom hwaiting hplaces)

theorem Unfilled.seat (h : manager.Unfilled) (hroom : manager.rooms.lookup r = some room)
    (member : Room.Member) (connection : ConnectionPtr) :
  (manager.setRoom r (room.seat member connection)).Unfilled
  := h.keep hroom rfl rfl (AList.size_assign _ _ _).le

theorem Unfilled.dismiss (h : manager.Unfilled) (hroom : manager.rooms.lookup r = some room)
    (p : UInt64) :
  (manager.setRoom r (room.dismiss p)).Unfilled
  := by
  have hsize : (room.dismiss p).members.size ≤ room.members.size := by
    apply AList.size_le_of_subset
    intro k hk
    exact (AList.mem_erase.mp hk).2
  exact h.keep hroom rfl rfl hsize

theorem Unfilled.tickRooms (h : manager.Unfilled) :
  manager.tickRooms.2.Unfilled
  := by
  intro r room hr
  rw [lookup_tickRooms] at hr
  obtain ⟨room', hr', rfl⟩ := Option.map_eq_some_iff.mp hr
  rw [tickRoom_eq]
  obtain heq | ⟨hrunning, heq⟩ := room'.tick_cases
  · rw [heq]
    apply h r room' hr'
  · rw [heq]
    intro hwaiting
    dsimp only at hwaiting
    rw [hrunning] at hwaiting
    cases hwaiting

theorem Unfilled.addRoom (h : manager.Unfilled) (r : UInt32) (capacity : UInt64) :
  (manager.addRoom r capacity).2.Unfilled
  := by
  obtain heq | ⟨-, heq⟩ := manager.addRoom_cases r capacity
  · rw [heq]
    exact h
  · rw [heq]
    intro r' room hr
    dsimp only at hr
    rw [AList.lookup_insert_eq_ite] at hr
    split at hr
    · cases hr
      exact fun _ hplaces => hplaces
    · apply h r' room hr

end RoomManager

namespace RoomService

variable {service service' : RoomService} {L : Ledger} {c : ConnId} {es : List Event}

/-! ### All or nothing -/

/-- A room that was filled runs if and only if it is full, and is the one with a new member
otherwise. -/
theorem Filled.spec {room room' : Room} {name : Bytes} (h : Filled room name c room')
    (hvalid : room.Valid) (hadmits : room.Admits name) :
  room'.members = (room.enrol name (some c)).members
    ∧ room'.nextPlayerId = room.nextPlayerId + 1
    ∧ room'.roomId = room.roomId ∧ room'.capacity = room.capacity
    ∧ (room'.state = .running ↔ room.members.size + 1 = room'.capacity.toNat)
    ∧ (room'.state ≠ .running → room' = room.enrol name (some c))
  := by
  cases h with
  | waits h =>
    have hstate : (room.enrol name (some c)).state = .waiting := hadmits.waiting
    have hcapacity : (room.enrol name (some c)).capacity = room.capacity := rfl
    refine ⟨rfl, rfl, rfl, rfl, ?_, fun _ => rfl⟩
    rw [hstate, hcapacity]
    constructor
    · rintro ⟨⟩
    · intro hfull
      omega
  | starts h hstart =>
    obtain ⟨-, hrunning, heq, -⟩ := Room.start_spec (hvalid.enrol hadmits (some c)) hstart
    have hnext : (room.enrol name (some c)).started.nextPlayerId = room.nextPlayerId + 1 := by
      rw [heq]
      rfl
    have hid : (room.enrol name (some c)).started.roomId = room.roomId := by
      rw [heq]
      rfl
    have hcapacity : (room.enrol name (some c)).started.capacity = room.capacity := by
      rw [heq]
      rfl
    refine ⟨Room.started_members _, hnext, hid, hcapacity, ?_, fun h => absurd hrunning h⟩
    rw [hcapacity]
    exact ⟨fun _ => h, fun _ => hrunning⟩

end RoomService

end RoomServer
