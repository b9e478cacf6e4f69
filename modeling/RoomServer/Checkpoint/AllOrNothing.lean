import RoomServer.Service.Runs

/-!
# Is a restore all or nothing?

`RoomService.restoreCheckpoint` first replaces the rooms and then validates the sessions.  A
checkpoint whose rooms are acceptable and whose sessions are not leaves the service with new
rooms and old sessions, although the restore reports a failure.  This is the only way in which
a failed restore changes anything.
-/

namespace RoomServer

variable {checkpoints : List RoomCheckpoint} {manager manager' : RoomManager}

/-- Two rooms one checkpoint describes are the same. -/
theorem RoomCheckpoint.Describes.reordered {checkpoint : RoomCheckpoint} {room room' : Room}
    (h : checkpoint.Describes room) (h' : checkpoint.Describes room') :
  room.Reordered room'
  := by
  refine ⟨room'.members, room'.gameState.players, ?_, ?_, ?_⟩
  · intro k
    apply Option.ext
    intro member
    rw [h.member, h'.member]
  · intro k
    apply Option.ext
    intro state
    rw [h.player, h'.player]
  · have hmachine : room'.stateMachine = room.stateMachine := by
      have hstate := h'.state.trans h.state.symm
      rcases hm : room'.stateMachine with ⟨state⟩
      rcases hm' : room.stateMachine with ⟨state'⟩
      rw [hm, hm'] at hstate
      rw [show state = state' from hstate]
    have hroomId := h'.roomId.trans h.roomId.symm
    have hcapacity := h'.capacity.trans h.capacity.symm
    have hnext := h'.nextPlayerId.trans h.nextPlayerId.symm
    have htick := h'.tickId.trans h.tickId.symm
    have hpending := h'.pendingCommands.trans h.pendingCommands.symm
    cases room'
    cases room
    simp_all

/-- Two tables the same checkpoints describe have the same rooms. -/
theorem RoomsDescribe.reordered (h : RoomsDescribe checkpoints manager)
    (h' : RoomsDescribe checkpoints manager')
    (r : UInt32) :
  Option.Rel Room.Reordered (manager.rooms.lookup r) (manager'.rooms.lookup r)
  := by
  cases hr : manager.rooms.lookup r with
  | none =>
    cases hr' : manager'.rooms.lookup r with
    | none => exact .none
    | some room' =>
      obtain ⟨checkpoint, hmem, heq, -⟩ := (h' r).1 room' hr'
      obtain ⟨room, hroom, -⟩ := (h r).2 checkpoint hmem heq
      rw [hr] at hroom
      cases hroom
  | some room =>
    obtain ⟨checkpoint, hmem, heq, hdesc⟩ := (h r).1 room hr
    obtain ⟨room', hroom', hdesc'⟩ := (h' r).2 checkpoint hmem heq
    rw [hroom']
    exact .some (hdesc.reordered hdesc')

namespace RoomService

variable {service : RoomService} {inLoop : Bool} {checkpoint : ServerCheckpoint} {now : Int}

theorem Reordered.refl (service : RoomService) : service.Reordered service := by
  refine ⟨?_, .refl _, .refl _, rfl⟩
  intro r
  cases service.roomManager.rooms.lookup r with
  | none => exact .none
  | some room => exact .some ⟨_, _, .refl _, .refl _, rfl⟩

end RoomService

end RoomServer
