import RoomServer.Game.RoomRuns

/-!
# Ticks

A tick of a running room settles the commands that were accepted since the last one, in the
order in which they were accepted, whatever became of the connections of the players.
-/

namespace RoomServer

namespace Room

/-- The result of a tick is that of the commands, one after the other. -/
structure Settled (room : Room) (commands : List Gamecommand) (result : TickResult)
    (room' : Room) : Prop where
  /-- Each player has at most one command. -/
  actors : (commands.map Gamecommand.playerId).Nodup
  game : room'.gameState
    = commands.foldl (fun game command => (processCommand game command).2) room.gameState
  frame : room' = { room with
    gameState := room'.gameState, tickId := room.tickId + 1, pendingCommands := [] }
  result : result = ⟨.success, room.tickId + 1, commands.length,
    (turns room.gameState commands).countP Turn.succeeded, room'.gameState.snapshot⟩
  /-- A command succeeds when it changes the game. -/
  changed : ∀ turn ∈ turns room.gameState commands,
    turn.succeeded = true ↔ turn.after ≠ turn.before
  /-- The command of a player that has left has no effect. -/
  absent : ∀ turn ∈ turns room.gameState commands,
    turn.command.playerId ∉ room.members → turn.after = turn.before
  players : room'.gameState.snapshot.map PlayerGameState.playerId
    = room.gameState.snapshot.map PlayerGameState.playerId
  near : ∀ s ∈ room.gameState.snapshot, ∀ s' ∈ room'.gameState.snapshot,
    s'.playerId = s.playerId → OnBoard s'
      ∧ (s'.x.toInt - s.x.toInt).natAbs + (s'.y.toInt - s.y.toInt).natAbs ≤ 1
  hp_le : ∀ s ∈ room.gameState.snapshot, ∀ s' ∈ room'.gameState.snapshot,
    s'.playerId = s.playerId → s'.hp.toInt ≤ s.hp.toInt
  /-- A fallen player loses nothing and hits nobody. -/
  fallen : ∀ s ∈ room.gameState.snapshot, s.hp.toInt ≤ 0 →
    (∀ s' ∈ room'.gameState.snapshot, s'.playerId = s.playerId → s'.hp = s.hp)
      ∧ ∀ turn ∈ turns room.gameState commands, turn.command.playerId = s.playerId →
        turn.hits = false
  totalHp : totalHp room.gameState.snapshot = totalHp room'.gameState.snapshot
    + 10 * (turns room.gameState commands).countP Turn.hits

variable {room : Room}

theorem turns_mem_players {game : Gamestate} {commands : List Gamecommand} {turn : Turn}
    (h : turn ∈ turns game commands) (k : UInt64) :
  k ∈ turn.before.players ↔ k ∈ game.players
  := by
  induction commands generalizing game with
  | nil => cases h
  | cons command commands ih =>
    rw [turns] at h
    rcases List.mem_cons.mp h with rfl | h
    · rfl
    · apply (ih h).trans ((processCommand_changes game command).mem_iff k)

theorem Intact.settled (h : room.Intact) (hrunning : room.stateMachine.state = .running) :
  room.Settled room.pendingCommands room.tick.1 room.tick.2
  := by
  have hkeyed : room.gameState.Keyed := fun _ _ => h.game_key
  have htick : room.tick = (⟨.success, room.tickId + 1, room.pendingCommands.length,
      (processCommands room.gameState room.pendingCommands).1,
      (processCommands room.gameState room.pendingCommands).2.snapshot⟩, { room with
        gameState := (processCommands room.gameState room.pendingCommands).2
        tickId := room.tickId + 1
        pendingCommands := [] }) := by
    rw [Room.tick, if_neg (not_not.mpr hrunning)]
  have hkeyed' : (processCommands room.gameState room.pendingCommands).2.Keyed := by
    have hvalid := h.toValid.tick
    rw [htick] at hvalid
    exact fun _ _ => hvalid.game_key
  -- A player of the snapshot before is affected to be the one of the snapshot after.
  have haffects : ∀ s ∈ room.gameState.snapshot,
      ∀ s' ∈ (processCommands room.gameState room.pendingCommands).2.snapshot,
      s'.playerId = s.playerId →
      Affects (room.pendingCommands.map Gamecommand.playerId) s.playerId s s' := by
    intro s hs s' hs' hid
    have hlookup := hkeyed.mem_snapshot.mp hs
    have hlookup' := hkeyed'.mem_snapshot.mp hs'
    obtain ⟨s'', hs'', haffects⟩ := affects_processCommands hlookup room.pendingCommands
    rw [← hid, hlookup', Option.some.injEq] at hs''
    rw [hs'']
    exact haffects
  have hboard : ∀ s ∈ room.gameState.snapshot, OnBoard s := by
    intro s hs
    apply h.on_board _ s (hkeyed.mem_snapshot.mp hs)
  rw [htick]
  constructor
  · apply h.pending_nodup
  · apply processCommands_snd room.gameState room.pendingCommands
  · rfl
  · rw [processCommands_fst]
  · intro turn hturn
    have hprocess := processCommand_of_mem_turns hturn
    have hiff := succeeded_iff turn.before turn.command
    rw [hprocess] at hiff
    exact hiff
  · intro turn hturn habsent
    have hprocess := processCommand_of_mem_turns hturn
    have hgame : turn.command.playerId ∉ turn.before.players := by
      rw [turns_mem_players hturn, h.mem_game (by rw [hrunning]; simp)]
      exact habsent
    rw [processCommand_of_notMem hgame, Prod.mk.injEq] at hprocess
    apply hprocess.2.symm
  · have hmem : ∀ k, k ∈ (processCommands room.gameState room.pendingCommands).2.players
        ↔ k ∈ room.gameState.players := mem_processCommands _ _
    apply Gamestate.map_playerId_snapshot hkeyed' hkeyed hmem
  · intro s hs s' hs' hid
    have hs'' := haffects s hs s' hs' hid
    exact ⟨hs''.on_board (hboard s hs), hs''.near (hboard s hs) h.pending_nodup⟩
  · intro s hs s' hs' hid
    apply (haffects s hs s' hs' hid).hp_le
  · intro s hs hfallen
    constructor
    · intro s' hs' hid
      apply (haffects s hs s' hs' hid).fallen hfallen
    · intro turn hturn hactor
      apply not_hits_of_fallen (hkeyed.mem_snapshot.mp hs) hfallen hturn hactor
  · apply totalHp_processCommands room.gameState room.pendingCommands

end Room

namespace RoomRun

variable {run : RoomRun}

/-- A tick of a running room settles exactly the commands that were accepted since the last
one, and the commands that are accepted after it are left to the next. -/
theorem tick_of_reachable (h : system.Reachable run)
    (hrunning : run.room.stateMachine.state = .running) :
  run.room.Settled run.accepted run.room.tick.1 run.room.tick.2
    ∧ run.tick.room.pendingCommands = [] ∧ run.tick.accepted = []
  := by
  have hinv := inv_of_reachable h
  have hsettled := hinv.intact.settled hrunning
  rw [hinv.pending hrunning] at hsettled
  use hsettled
  constructor
  · rw [RoomRun.tick, hsettled.frame]
  · rw [RoomRun.tick, if_pos ((tick_state run.room).mpr hrunning)]

/-- Both players have a command, and one has been given another connection in between. -/
def commanded : RoomRun :=
  let run := paired.submit (.attack 1 2)
  let run := { run with room := (run.room.detachConnection 1 (some 7)).2 }
  let run := { run with room := (run.room.bindConnection 1 (some 9)).2 }
  run.submit (.move 2 1 0)

theorem commanded_reachable :
  system.Reachable commanded
  := by
  apply System.ReachableBy.step (ℓ := .submit (.move 2 1 0)) _ trivial rfl
  apply System.ReachableBy.step (ℓ := .bindConnection 1 (some 9)) _ trivial rfl
  apply System.ReachableBy.step (ℓ := .detachConnection 1 (some 7)) _ trivial rfl
  apply System.ReachableBy.step (ℓ := .submit (.attack 1 2)) _ trivial rfl
  exact paired_reachable

theorem commanded_tick :
  commanded.accepted = [.attack 1 2, .move 2 1 0]
    ∧ commanded.room.Settled commanded.accepted commanded.room.tick.1 commanded.room.tick.2
  := ⟨by decide +kernel, (tick_of_reachable commanded_reachable (by decide +kernel)).1⟩

end RoomRun

end RoomServer
