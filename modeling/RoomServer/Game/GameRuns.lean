import RoomServer.Game.GameState
import RoomServer.Lib.Transition

/-!
# Runs of a game

A game starts empty, and its operations come in any order.  It `Reloads` when its snapshot can
be restored and the restored game has the same snapshot.

The hit points `restore` accepts are not closed under attacks: it takes over a player with less
than `attackDamage`, and an attack makes the hit points of such a player negative, which
`restore` refuses.  As long as no attack is carried out on such a player, every game reloads.
-/

namespace RoomServer

namespace Gamestate

inductive Action where
  | initializeGame (playerIds : List UInt64)
  | restore (states : List PlayerGameState)
  | removePlayer (playerId : UInt64)
  | movePlayer (playerId : UInt64) (dx dy : Int32)
  | attackPlayer (attackerId targetPlayerId : UInt64)

/-- The game with its operations. -/
def system : System Gamestate Action where
  Initial game := game = new
  Step game action game' :=
    match action with
    | .initializeGame playerIds => game' = (game.initializeGame playerIds).2
    | .restore states => restore states = some game'
    | .removePlayer playerId => game' = (game.removePlayer playerId).2
    | .movePlayer playerId dx dy => game' = (game.movePlayer playerId dx dy).2
    | .attackPlayer attackerId targetPlayerId =>
      game' = (game.attackPlayer attackerId targetPlayerId).2

/-- The snapshot can be restored, and the restored game has the same snapshot. -/
def Reloads (game : Gamestate) : Prop :=
  ∃ game', restore game.snapshot = some game' ∧ game'.snapshot = game.snapshot

/-- An attack that is carried out finds the hit points it takes. -/
def Spares (game : Gamestate) : Action → Prop
  | .attackPlayer attackerId targetPlayerId =>
    ∀ attacker target, game.Strikes attackerId targetPlayerId attacker target →
      attackDamage ≤ target.hp
  | _ => True

/-- The players are restorable, and no more than a game can start with. -/
structure Savable (game : Gamestate) : Prop where
  keyed : game.Keyed
  restorable : ∀ k state, game.players.lookup k = some state → Restorable state
  size_le : game.players.size ≤ maxPlayers

variable {game game' : Gamestate}

theorem keyed_of_restore {states : List PlayerGameState} (h : restore states = some game) :
  game.Keyed
  := by
  intro k state hk
  apply ((lookup_restore h).mp hk).2

theorem new_savable : new.Savable := by constructor <;> simp [new, Keyed]

theorem Savable.reloads (h : game.Savable) :
  game.Reloads
  := by
  have hlength : game.snapshot.length ≤ maxPlayers := by
    rw [length_snapshot]
    apply h.size_le
  have hnodup : (game.snapshot.map fun state => state.playerId).Nodup :=
    List.nodup_map_of_pairwise_lt h.keyed.pairwise_snapshot
  have hgood : ∀ state ∈ game.snapshot, Restorable state := by
    intro state hmem
    apply h.restorable _ state (h.keyed.mem_snapshot.mp hmem)
  obtain ⟨game', hgame'⟩ := Option.isSome_iff_exists.mp
    (restore_isSome_iff.mpr ⟨hlength, hnodup, hgood⟩)
  use game', hgame'
  have hkeyed := keyed_of_restore hgame'
  apply List.eq_of_mem_iff_of_pairwise_lt hkeyed.pairwise_snapshot h.keyed.pairwise_snapshot
  intro state
  rw [hkeyed.mem_snapshot, lookup_restore hgame']
  simp

/-- A game with players that are kept under their ids reloads only if they are restorable. -/
theorem Reloads.restorable (h : game.Reloads) (hkeyed : game.Keyed) {k : UInt64}
    {state : PlayerGameState} (hk : game.players.lookup k = some state) :
  Restorable state
  := by
  obtain ⟨game', hgame', -⟩ := h
  apply (restore_isSome_iff.mp (Option.isSome_of_eq_some hgame')).2.2
  rw [hkeyed.mem_snapshot, hkeyed k state hk]
  exact hk

theorem Keyed.assign (h : game.Keyed) {k : UInt64} {state state' : PlayerGameState}
    (hk : game.players.lookup k = some state) (hid : state'.playerId = state.playerId) :
  (⟨game.players.assign k state'⟩ : Gamestate).Keyed
  := by
  intro k' state'' hk'
  dsimp only at hk'
  rw [AList.lookup_assign_of_mem (AList.mem_iff_lookup.mpr ⟨state, hk⟩)] at hk'
  split at hk'
  · next heq =>
    cases hk'
    rw [hid, heq, h k state hk]
  · apply h k' state'' hk'

/-- Changing one player to a restorable one keeps a game savable. -/
theorem Savable.assign (h : game.Savable) {k : UInt64} {state state' : PlayerGameState}
    (hk : game.players.lookup k = some state) (hid : state'.playerId = state.playerId)
    (hstate' : Restorable state') :
  (⟨game.players.assign k state'⟩ : Gamestate).Savable
  := by
  constructor
  · apply h.keyed.assign hk hid
  · intro k' state'' hk'
    dsimp only at hk'
    rw [AList.lookup_assign_of_mem (AList.mem_iff_lookup.mpr ⟨state, hk⟩)] at hk'
    split at hk'
    · cases hk'
      exact hstate'
    · apply h.restorable k' state'' hk'
  · rw [AList.size_assign]
    apply h.size_le

theorem Savable.initializeGame (h : game.Savable) (ids : List UInt64) :
  (game.initializeGame ids).2.Savable
  := by
  obtain ⟨-, hsame⟩ | ⟨hne, hlen, hzero, hnodup⟩ := game.initializeGame_cases ids
  · rw [hsame]
    exact h
  · obtain ⟨-, hkeys, hsound⟩ := game.initializeGame_spec hne hlen hzero hnodup
    constructor
    · intro k state hk
      apply (hsound k state hk).1
    · intro k state hk
      apply (hsound k state hk).2.toRestorable
    · rw [← AList.length_keys]
      apply Nat.le_trans _ hlen
      apply List.Subperm.length_le
      apply (game.initializeGame ids).2.players.keys_nodup.subperm
      intro k hk
      apply (hkeys k).mp hk

theorem savable_of_restore {states : List PlayerGameState} (h : restore states = some game) :
  game.Savable
  := by
  obtain ⟨hlen, -, hgood⟩ := restore_isSome_iff.mp (Option.isSome_of_eq_some h)
  constructor
  · apply keyed_of_restore h
  · intro k state hk
    apply hgood state ((lookup_restore h).mp hk).1
  · rw [size_restore h]
    exact hlen

theorem Savable.removePlayer (h : game.Savable) (playerId : UInt64) :
  (game.removePlayer playerId).2.Savable
  := by
  rw [Gamestate.removePlayer]
  split
  · exact h
  split
  · exact h
  have hlookup : ∀ {k state}, (game.players.erase playerId).lookup k = some state →
      game.players.lookup k = some state := by
    intro k state hk
    rw [AList.lookup_erase_eq_ite] at hk
    split at hk
    · cases hk
    · exact hk
  constructor
  · intro k state hk
    apply h.keyed k state (hlookup hk)
  · intro k state hk
    apply h.restorable k state (hlookup hk)
  · apply Nat.le_trans _ h.size_le
    apply AList.size_le_of_subset
    intro k hk
    apply (AList.mem_erase.mp hk).2

theorem Savable.movePlayer (h : game.Savable) (playerId : UInt64) (dx dy : Int32) :
  (game.movePlayer playerId dx dy).2.Savable
  := by
  obtain ⟨-, hsame⟩ | ⟨player, hplayer, -, hboard, hmove⟩ := game.movePlayer_cases playerId dx dy
  · rw [hsame]
    exact h
  · rw [hmove]
    have hgood := h.restorable playerId player hplayer
    exact h.assign hplayer rfl ⟨hgood.id_ne_zero, hboard, hgood.hp_in_range⟩

theorem Savable.attackPlayer (h : game.Savable) {attackerId targetPlayerId : UInt64}
    (hspares : game.Spares (.attackPlayer attackerId targetPlayerId)) :
  (game.attackPlayer attackerId targetPlayerId).2.Savable
  := by
  obtain ⟨-, hsame⟩ | ⟨attacker, target, hstrikes, hattack⟩ :=
    game.attackPlayer_cases attackerId targetPlayerId
  · rw [hsame]
    exact h
  · rw [hattack]
    have htarget := hstrikes.target_lookup
    have hgood := h.restorable targetPlayerId target htarget
    have hhp := (hp_in_range_iff hgood.hp_in_range).mpr (hspares attacker target hstrikes)
    exact h.assign htarget rfl ⟨hgood.id_ne_zero, hgood.on_board, hhp⟩

/-- After an attack the game reloads exactly when the target had the hit points it takes. -/
theorem Savable.attackPlayer_reloads_iff (h : game.Savable)
    (attackerId targetPlayerId : UInt64) :
  (game.attackPlayer attackerId targetPlayerId).2.Reloads
    ↔ game.Spares (.attackPlayer attackerId targetPlayerId)
  := by
  constructor
  · intro hreloads attacker target hstrikes
    obtain ⟨hfail, -⟩ | ⟨attacker', target', hstrikes', hattack⟩ :=
      game.attackPlayer_cases attackerId targetPlayerId
    · exact absurd (attackPlayer_of_strikes hstrikes) hfail
    have htarget := hstrikes'.target_lookup
    rw [hstrikes.target_lookup, Option.some.injEq] at htarget
    subst htarget
    rw [hattack] at hreloads
    have hmem : targetPlayerId ∈ game.players :=
      AList.mem_iff_lookup.mpr ⟨target, hstrikes.target_lookup⟩
    have hgood := h.restorable targetPlayerId target hstrikes.target_lookup
    have hkeyed := h.keyed.assign hstrikes.target_lookup
      (show { target with hp := target.hp - attackDamage }.playerId = target.playerId from rfl)
    have hstate := hreloads.restorable hkeyed (k := targetPlayerId)
      (by rw [AList.lookup_assign_of_mem hmem, if_pos rfl])
    apply (hp_in_range_iff hgood.hp_in_range).mp hstate.hp_in_range
  · intro hspares
    apply (h.attackPlayer hspares).reloads

theorem savable_of_step {action : Action} (h : game.Savable) (haction : game.Spares action)
    (hstep : system.Step game action game') :
  game'.Savable
  := by
  cases action with
  | initializeGame playerIds =>
    rw [show game' = _ from hstep]
    apply h.initializeGame playerIds
  | restore states => apply savable_of_restore hstep
  | removePlayer playerId =>
    rw [show game' = _ from hstep]
    apply h.removePlayer playerId
  | movePlayer playerId dx dy =>
    rw [show game' = _ from hstep]
    apply h.movePlayer playerId dx dy
  | attackPlayer attackerId targetPlayerId =>
    rw [show game' = _ from hstep]
    apply h.attackPlayer haction

/-- As long as every attack that is carried out finds the hit points it takes, every game
reloads; and no game reloads after an attack that does not. -/
theorem reloads_of_reachableBy (h : system.ReachableBy Spares game) :
  game.Reloads ∧ ∀ attackerId targetPlayerId,
    (game.attackPlayer attackerId targetPlayerId).2.Reloads
      ↔ game.Spares (.attackPlayer attackerId targetPlayerId)
  := by
  have hsavable : game.Savable := by
    apply h.invariant
    · rintro game rfl
      exact new_savable
    · intro game action game' hgame haction hstep
      apply savable_of_step hgame haction hstep
  use hsavable.reloads
  intro attackerId targetPlayerId
  apply hsavable.attackPlayer_reloads_iff attackerId targetPlayerId

/-- Two players next to each other, after one of them has attacked the other. -/
def duel : Gamestate := ((new.initializeGame [1, 2]).2.attackPlayer 1 2).2

theorem duel_reachable :
  system.ReachableBy Spares duel
  := by
  apply System.ReachableBy.step (ℓ := .attackPlayer 1 2) _ _ rfl
  · apply System.ReachableBy.step (ℓ := .initializeGame [1, 2]) _ trivial rfl
    exact .initial rfl
  · intro attacker target hstrikes
    have htarget := hstrikes.target_lookup
    rw [show (new.initializeGame [1, 2]).2.players.lookup 2 = some ⟨2, 1, 0, 100⟩ by
      decide +kernel] at htarget
    cases htarget
    decide

theorem duel_reloads :
  duel.players.lookup 2 = some ⟨2, 1, 0, 90⟩ ∧ duel.Reloads
  := ⟨by decide +kernel, (reloads_of_reachableBy duel_reachable).1⟩

/-- The saved states of a player and of one with five hit points next to it. -/
def wounded : List PlayerGameState := [⟨1, 0, 0, 100⟩, ⟨2, 1, 0, 5⟩]

/-- The attack leaves -5 hit points, which cannot be restored. -/
theorem wounded_not_reloads :
  ∃ game, system.Reachable game ∧ ¬game.Reloads
  := by
  have hsome : (restore wounded).isSome := by decide +kernel
  obtain ⟨game, hgame⟩ := Option.isSome_iff_exists.mp hsome
  have hrestored : system.Reachable game :=
    System.ReachableBy.step (ℓ := Action.restore wounded) (.initial rfl) trivial hgame
  have hfallen : ((restore wounded).map fun game =>
      (restore (game.attackPlayer 1 2).2.snapshot).isSome) = some false := by
    decide +kernel
  use (game.attackPlayer 1 2).2
  constructor
  · apply hrestored.step (ℓ := Action.attackPlayer 1 2) trivial rfl
  · rintro ⟨game', hgame', -⟩
    rw [hgame, Option.map_some, hgame'] at hfallen
    cases hfallen

end Gamestate

end RoomServer
