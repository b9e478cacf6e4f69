import Mathlib.Algebra.BigOperators.Group.List.Basic
import RoomServer.Game.Room

/-!
# Commands

A batch of commands is settled one command after the other.  A command that succeeds changes
one player: a move takes its own player one step, an attack takes ten hit points from a living
player.  A command that does not succeed changes nothing.

What a batch does to a player is stated here once, by induction on the batch: it keeps its id,
it moves at most as its own command says, it never gains hit points, and a fallen player loses
none.  The hit points that are lost are ten for each attack that succeeds.
-/

namespace RoomServer

namespace Room

/-- The player stands on the board. -/
def OnBoard (state : PlayerGameState) : Prop :=
  0 ≤ state.x.toInt ∧ state.x.toInt ≤ 100 ∧ 0 ≤ state.y.toInt ∧ state.y.toInt ≤ 100

theorem onBoard_iff {state : PlayerGameState} :
  OnBoard state ↔ ¬(state.x < Gamestate.minPosition ∨ state.x > Gamestate.maxPosition
    ∨ state.y < Gamestate.minPosition ∨ state.y > Gamestate.maxPosition)
  := by
  have h0 : Gamestate.minPosition.toInt = 0 := by decide
  have h100 : Gamestate.maxPosition.toInt = 100 := by decide
  simp only [OnBoard, gt_iff_lt, Int32.lt_iff_toInt_lt, h0, h100, not_or, Int.not_lt]

/-! ### One command -/

/-- What a player may become by the commands of the players `actors`. -/
structure Affects (actors : List UInt64) (k : UInt64) (state state' : PlayerGameState) :
    Prop where
  playerId : state'.playerId = state.playerId
  hp_le : state'.hp.toInt ≤ state.hp.toInt
  fallen : state.hp.toInt ≤ 0 → state'.hp = state.hp
  still : k ∉ actors → state'.x = state.x ∧ state'.y = state.y
  on_board : OnBoard state → OnBoard state'
  near : OnBoard state → actors.Nodup →
    (state'.x.toInt - state.x.toInt).natAbs + (state'.y.toInt - state.y.toInt).natAbs ≤ 1

theorem affects_refl (actors : List UInt64) (k : UInt64) (state : PlayerGameState) :
  Affects actors k state state
  := by constructor <;> simp

/-- A step on the board is a step of one. -/
theorem near_of_unitStep {x y dx dy : Int32} (hstep : Gamestate.UnitStep dx dy)
    (hx : 0 ≤ x.toInt ∧ x.toInt ≤ 100) (hy : 0 ≤ y.toInt ∧ y.toInt ≤ 100) :
  ((x + dx).toInt - x.toInt).natAbs + ((y + dy).toInt - y.toInt).natAbs = 1
  := by
  have h1 : (1 : Int32).toInt = 1 := by decide
  have hneg : (-1 : Int32).toInt = -1 := by decide
  have h0 : (0 : Int32).toInt = 0 := by decide
  obtain ⟨rfl | rfl, rfl⟩ | ⟨rfl | rfl, rfl⟩ := hstep <;>
    simp only [Int32.toInt_add, h1, hneg, h0] <;>
    rw [Int.bmod_eq_of_le (by omega) (by omega), Int.bmod_eq_of_le (by omega) (by omega)] <;>
    omega

/-- A living player has the hit points an attack takes, or falls. -/
theorem toInt_hp_sub {hp : Int32} (h : ¬hp ≤ 0) :
  (hp - Gamestate.attackDamage).toInt = hp.toInt - 10
  := by
  have h0 : (0 : Int32).toInt = 0 := by decide
  have h10 : Gamestate.attackDamage.toInt = 10 := by decide
  have hlt := hp.toInt_lt
  rw [Int32.le_iff_toInt_le, h0] at h
  rw [Int32.toInt_sub, h10, Int.bmod_eq_of_le (by omega) (by omega)]

/-- A command fails and changes nothing, or it changes one player. -/
theorem processCommand_cases (game : Gamestate) (command : Gamecommand) :
  processCommand game command = (false, game)
    ∨ (∃ playerId dx dy player, command = .move playerId dx dy
      ∧ game.players.lookup playerId = some player ∧ Gamestate.UnitStep dx dy
      ∧ OnBoard { player with x := player.x + dx, y := player.y + dy }
      ∧ processCommand game command = (true, ⟨game.players.assign playerId
        { player with x := player.x + dx, y := player.y + dy }⟩))
    ∨ ∃ attackerId targetPlayerId attacker target, command = .attack attackerId targetPlayerId
      ∧ game.Strikes attackerId targetPlayerId attacker target
      ∧ processCommand game command = (true, ⟨game.players.assign targetPlayerId
        { target with hp := target.hp - Gamestate.attackDamage }⟩)
  := by
  cases command with
  | move playerId dx dy =>
    rw [processCommand]
    obtain ⟨hfail, hsame⟩ | ⟨player, hplayer, hstep, hboard, hmove⟩ :=
      game.movePlayer_cases playerId dx dy
    · left
      rw [Prod.mk.injEq, decide_eq_false_iff_not]
      exact ⟨hfail, hsame⟩
    · right; left
      rw [hmove]
      exact ⟨playerId, dx, dy, player, rfl, hplayer, hstep, onBoard_iff.mpr hboard, rfl⟩
  | attack attackerId targetPlayerId =>
    rw [processCommand]
    obtain ⟨hfail, hsame⟩ | ⟨attacker, target, hstrikes, hattack⟩ :=
      game.attackPlayer_cases attackerId targetPlayerId
    · left
      rw [Prod.mk.injEq, decide_eq_false_iff_not]
      exact ⟨hfail, hsame⟩
    · right; right
      rw [hattack]
      exact ⟨attackerId, targetPlayerId, attacker, target, rfl, hstrikes, rfl⟩

/-- What a command does to a player. -/
theorem affects_processCommand {game : Gamestate} (command : Gamecommand) {k : UInt64}
    {state : PlayerGameState} (hk : game.players.lookup k = some state) :
  ∃ state', (processCommand game command).2.players.lookup k = some state'
    ∧ Affects [command.playerId] k state state'
  := by
  obtain hsame | ⟨playerId, dx, dy, player, rfl, hplayer, hstep, hboard, hmove⟩ |
    ⟨attackerId, targetPlayerId, attacker, target, rfl, hstrikes, hattack⟩ :=
    processCommand_cases game command
  · rw [hsame]
    exact ⟨state, hk, affects_refl _ k state⟩
  · rw [hmove, AList.lookup_assign_of_mem (AList.mem_iff_lookup.mpr ⟨player, hplayer⟩)]
    split
    · next heq =>
      rw [heq, hplayer, Option.some.injEq] at hk
      subst hk
      refine ⟨_, rfl, rfl, le_refl _, fun _ => rfl, ?_, fun _ => hboard, ?_⟩
      · intro hstill
        exact absurd (List.mem_singleton.mpr heq) hstill
      · rintro ⟨hx, hx', hy, hy'⟩ -
        apply (near_of_unitStep hstep ⟨hx, hx'⟩ ⟨hy, hy'⟩).le
    · exact ⟨state, hk, affects_refl _ k state⟩
  · have htarget := hstrikes.target_lookup
    rw [hattack, AList.lookup_assign_of_mem (AList.mem_iff_lookup.mpr ⟨target, htarget⟩)]
    split
    · next heq =>
      rw [heq, htarget, Option.some.injEq] at hk
      subst hk
      have halive := hstrikes.target_alive
      refine ⟨_, rfl, rfl, ?_, ?_, fun _ => ⟨rfl, rfl⟩, id, ?_⟩
      · rw [toInt_hp_sub halive]
        omega
      · intro hfallen
        exact absurd (Int32.le_iff_toInt_le.mpr hfallen) halive
      · intro _ _
        simp
    · exact ⟨state, hk, affects_refl _ k state⟩

/-! ### The turns of a batch -/

/-- A command of a batch, with the games before and after it. -/
structure Turn where
  command : Gamecommand
  before : Gamestate
  succeeded : Bool
  after : Gamestate

/-- The turns of the commands of a batch. -/
def turns (game : Gamestate) : List Gamecommand → List Turn
  | [] => []
  | command :: commands =>
    ⟨command, game, (processCommand game command).1, (processCommand game command).2⟩
      :: turns (processCommand game command).2 commands

/-- The turn is an attack that succeeds. -/
def Turn.hits (turn : Turn) : Bool :=
  match turn.command with
  | .move _ _ _ => false
  | .attack _ _ => turn.succeeded

theorem Turn.hits_of_not_succeeded {turn : Turn} (h : turn.succeeded = false) :
  turn.hits = false
  := by
  rw [hits]
  split
  · rfl
  · exact h

/-- The hit points of all the players. -/
def totalHp (states : List PlayerGameState) : Int :=
  (states.map fun state => state.hp.toInt).sum

variable {game : Gamestate} {commands : List Gamecommand}

/-- A turn is the processing of its command. -/
theorem processCommand_of_mem_turns {turn : Turn} (h : turn ∈ turns game commands) :
  processCommand turn.before turn.command = (turn.succeeded, turn.after)
  := by
  induction commands generalizing game with
  | nil => cases h
  | cons command commands ih =>
    rw [turns] at h
    rcases List.mem_cons.mp h with rfl | h
    · rfl
    · apply ih h

/-- The commands that succeed are counted. -/
theorem processCommands_fst (game : Gamestate) (commands : List Gamecommand) :
  (processCommands game commands).1 = (turns game commands).countP Turn.succeeded
  := by
  induction commands generalizing game with
  | nil => rfl
  | cons command commands ih =>
    rw [turns, processCommands, List.countP_cons]
    dsimp only
    rw [ih]
    split <;> rfl

/-- A batch leads to what its commands lead to one after the other. -/
theorem processCommands_snd (game : Gamestate) (commands : List Gamecommand) :
  (processCommands game commands).2
    = commands.foldl (fun game command => (processCommand game command).2) game
  := by
  induction commands generalizing game with
  | nil => rfl
  | cons command commands ih =>
    rw [processCommands, List.foldl_cons]
    apply ih _

/-- A batch of one command of each player is one of the first command and one of the rest. -/
theorem Affects.trans {actor : UInt64} {actors : List UInt64} {k : UInt64}
    {s s' s'' : PlayerGameState} (h : Affects [actor] k s s') (h' : Affects actors k s' s'') :
  Affects (actor :: actors) k s s''
  := by
  refine ⟨h'.playerId.trans h.playerId, h'.hp_le.trans h.hp_le, ?_, ?_, ?_, ?_⟩
  · intro hfallen
    have hhp := h.fallen hfallen
    rw [h'.fallen (by rw [hhp]; exact hfallen), hhp]
  · intro hstill
    rw [List.mem_cons, not_or] at hstill
    obtain ⟨hx, hy⟩ := h.still (by simpa using hstill.1)
    obtain ⟨hx', hy'⟩ := h'.still hstill.2
    exact ⟨hx'.trans hx, hy'.trans hy⟩
  · intro hboard
    apply h'.on_board (h.on_board hboard)
  · intro hboard hnodup
    rw [List.nodup_cons] at hnodup
    -- Either the player is still in the rest of the batch, or in its first command.
    by_cases hk : k = actor
    · obtain ⟨hx, hy⟩ := h'.still (by rw [hk]; exact hnodup.1)
      rw [hx, hy]
      apply h.near hboard (List.nodup_singleton actor)
    · obtain ⟨hx, hy⟩ := h.still (by simpa using hk)
      rw [← hx, ← hy]
      apply h'.near (h.on_board hboard) hnodup.2

/-- What a batch does to a player. -/
theorem affects_processCommands {k : UInt64} {state : PlayerGameState}
    (hk : game.players.lookup k = some state) (commands : List Gamecommand) :
  ∃ state', (processCommands game commands).2.players.lookup k = some state'
    ∧ Affects (commands.map Gamecommand.playerId) k state state'
  := by
  induction commands generalizing game state with
  | nil => exact ⟨state, hk, affects_refl _ k state⟩
  | cons command commands ih =>
    obtain ⟨state', hk', haffects⟩ := affects_processCommand command hk
    obtain ⟨state'', hk'', haffects'⟩ := ih hk'
    exact ⟨state'', hk'', haffects.trans haffects'⟩

/-! ### Success -/

/-- A command succeeds exactly when it changes the game. -/
theorem succeeded_iff (game : Gamestate) (command : Gamecommand) :
  (processCommand game command).1 = true ↔ (processCommand game command).2 ≠ game
  := by
  obtain hsame | ⟨playerId, dx, dy, player, -, hplayer, hstep, -, hmove⟩ |
    ⟨attackerId, targetPlayerId, attacker, target, -, hstrikes, hattack⟩ :=
    processCommand_cases game command
  · simp [hsame]
  · rw [hmove]
    refine ⟨fun _ heq => ?_, fun _ => rfl⟩
    have hlookup := congrArg (fun game : Gamestate => game.players.lookup playerId) heq
    dsimp only at hlookup
    rw [AList.lookup_assign_of_mem (AList.mem_iff_lookup.mpr ⟨player, hplayer⟩), if_pos rfl,
      hplayer, Option.some.injEq, PlayerGameState.mk.injEq] at hlookup
    obtain ⟨-, hx, hy, -⟩ := hlookup
    rw [Int32.add_eq_left] at hx hy
    rw [hx, hy] at hstep
    revert hstep
    simp [Gamestate.UnitStep]
  · rw [hattack]
    refine ⟨fun _ heq => ?_, fun _ => rfl⟩
    have htarget := hstrikes.target_lookup
    have hlookup := congrArg (fun game : Gamestate => game.players.lookup targetPlayerId) heq
    dsimp only at hlookup
    rw [AList.lookup_assign_of_mem (AList.mem_iff_lookup.mpr ⟨target, htarget⟩), if_pos rfl,
      htarget, Option.some.injEq, PlayerGameState.mk.injEq] at hlookup
    have hhp := congrArg Int32.toInt hlookup.2.2.2
    rw [toInt_hp_sub hstrikes.target_alive] at hhp
    omega

/-- A command of a player that is not in the game has no effect. -/
theorem processCommand_of_notMem {command : Gamecommand}
    (h : command.playerId ∉ game.players) :
  processCommand game command = (false, game)
  := by
  obtain hsame | ⟨playerId, dx, dy, player, rfl, hplayer, -⟩ |
    ⟨attackerId, targetPlayerId, attacker, target, rfl, hstrikes, -⟩ :=
    processCommand_cases game command
  · exact hsame
  · exact absurd (AList.mem_iff_lookup.mpr ⟨player, hplayer⟩) h
  · exact absurd (AList.mem_iff_lookup.mpr ⟨attacker, hstrikes.attacker_lookup⟩) h

/-- A fallen player hits nobody. -/
theorem not_hits_of_fallen {k : UInt64} {state : PlayerGameState}
    (hk : game.players.lookup k = some state) (hfallen : state.hp.toInt ≤ 0) {turn : Turn}
    (hturn : turn ∈ turns game commands) (hactor : turn.command.playerId = k) :
  turn.hits = false
  := by
  induction commands generalizing game state with
  | nil => cases hturn
  | cons command commands ih =>
    rw [turns] at hturn
    rcases List.mem_cons.mp hturn with rfl | hturn
    · dsimp only at hactor
      obtain hsame | ⟨playerId, dx, dy, player, rfl, -⟩ |
        ⟨attackerId, targetPlayerId, attacker, target, rfl, hstrikes, -⟩ :=
        processCommand_cases game command
      · apply Turn.hits_of_not_succeeded
        rw [hsame]
      · rfl
      · cases hactor
        have hattacker := hstrikes.attacker_lookup
        rw [show (Gamecommand.attack attackerId targetPlayerId).playerId = attackerId from rfl,
          hattacker, Option.some.injEq] at hk
        subst hk
        exact absurd (Int32.le_iff_toInt_le.mpr hfallen) hstrikes.attacker_alive
    · obtain ⟨state', hk', haffects⟩ := affects_processCommand command hk
      apply ih hk' _ hturn
      apply haffects.hp_le.trans hfallen

/-! ### Hit points -/

theorem totalHp_snapshot (game : Gamestate) :
  totalHp game.snapshot = (game.players.values.map fun state => state.hp.toInt).sum
  := ((List.sortOn_perm _ _).map _).sum_eq

/-- An attack that succeeds takes ten hit points, and nothing else takes any. -/
theorem totalHp_processCommand (game : Gamestate) (command : Gamecommand) :
  totalHp game.snapshot = totalHp (processCommand game command).2.snapshot
    + if Turn.hits ⟨command, game, (processCommand game command).1,
        (processCommand game command).2⟩ then 10 else 0
  := by
  simp only [totalHp_snapshot]
  obtain hsame | ⟨playerId, dx, dy, player, rfl, hplayer, -, -, hmove⟩ |
    ⟨attackerId, targetPlayerId, attacker, target, rfl, hstrikes, hattack⟩ :=
    processCommand_cases game command
  · have hmiss := @Turn.hits_of_not_succeeded ⟨command, game, false, game⟩ rfl
    rw [hsame, hmiss]
    simp
  · rw [hmove]
    have hsum := AList.sum_values_assign hplayer (fun state => state.hp.toInt)
      { player with x := player.x + dx, y := player.y + dy }
    dsimp only [Turn.hits] at hsum ⊢
    simp only [Bool.false_eq_true, if_false]
    omega
  · rw [hattack]
    have hsum := AList.sum_values_assign hstrikes.target_lookup (fun state => state.hp.toInt)
      { target with hp := target.hp - Gamestate.attackDamage }
    dsimp only [Turn.hits] at hsum ⊢
    rw [toInt_hp_sub hstrikes.target_alive] at hsum
    simp only [if_true]
    omega

/-- The hit points lost in a batch are ten for each attack that succeeds. -/
theorem totalHp_processCommands (game : Gamestate) (commands : List Gamecommand) :
  totalHp game.snapshot = totalHp (processCommands game commands).2.snapshot
    + 10 * (turns game commands).countP Turn.hits
  := by
  induction commands generalizing game with
  | nil => simp [processCommands, turns]
  | cons command commands ih =>
    rw [totalHp_processCommand game command, ih (processCommand game command).2, turns,
      processCommands, List.countP_cons]
    dsimp only
    split <;> omega

end Room

end RoomServer
