import RoomServer.Lib.UnorderedMap
import RoomServer.Lib.SortOn
import Mathlib.Tactic.Tauto

/-!
# The state of a game

A room waits for players, runs a game, and finishes it; `Roomstatemachine` is the order of the
three.  `Gamestate` is the authoritative state of a running game: the position and the hit
points of every player.  A game is initialised with the players of the room on a line, and
changed by moves of one step and by attacks on a neighbour.

A player is `Sound` when it stands on the board and has hit points an attack cannot make
negative.  `restore` accepts sound players, the players of a new game are sound, and they stay
so whatever is commanded.
-/

namespace RoomServer

/-! ### The states of a room -/

namespace Roomstatemachine

inductive States where
  | waiting
  | running
  | finished
  deriving DecidableEq, Repr

inductive Transitionstates where
  | success
  | invalidState
  | conditionNotMet
  deriving DecidableEq, Repr

end Roomstatemachine

structure Roomstatemachine where
  state : Roomstatemachine.States
  deriving DecidableEq, Repr

namespace Roomstatemachine

def new : Roomstatemachine := ⟨.waiting⟩

def canJoin (machine : Roomstatemachine) : Bool := machine.state == .waiting

/-- From waiting to running. -/
def start (machine : Roomstatemachine) (readyToStart : Bool) :
    Transitionstates × Roomstatemachine :=
  if machine.state ≠ .waiting then
    (.invalidState, machine)
  else if !readyToStart then
    (.conditionNotMet, machine)
  else
    (.success, ⟨.running⟩)

/-- From running to finished. -/
def finish (machine : Roomstatemachine) (shouldFinish : Bool) :
    Transitionstates × Roomstatemachine :=
  if machine.state ≠ .running then
    (.invalidState, machine)
  else if !shouldFinish then
    (.conditionNotMet, machine)
  else
    (.success, ⟨.finished⟩)

end Roomstatemachine

/-! ### Games -/

structure PlayerGameState where
  playerId : UInt64
  x : Int32
  y : Int32
  hp : Int32
  deriving DecidableEq, Repr

structure Gamestate where
  players : UnorderedMap UInt64 PlayerGameState

namespace Gamestate

inductive States where
  | success
  | emptyPlayers
  | invalidPlayerId
  | duplicatePlayer
  | tooManyPlayers
  | playerNotFound
  | invalidMove
  | outOfBounds
  | invalidTarget
  | attackerNotFound
  | targetNotFound
  | attackerDead
  | targetDead
  | targetOutOfRange
  deriving DecidableEq, Repr

structure Attackresult where
  state : States
  attackerId : UInt64
  targetPlayerId : UInt64
  remainingHp : Int32
  targetEliminated : Bool

abbrev initialHp : Int32 := 100
abbrev minPosition : Int32 := 0
abbrev maxPosition : Int32 := 100
abbrev attackDamage : Int32 := 10
abbrev maxPlayers : Nat := 101

def new : Gamestate := ⟨∅⟩

def playerCount (game : Gamestate) : Nat := game.players.size

/-- The first fault of a list of player ids that `initializeGame` reports; `seen` are the ids
before the list. -/
def checkIds (seen : List UInt64) : List UInt64 → States
  | [] => .success
  | id :: ids =>
    if id = 0 then
      .invalidPlayerId
    else if id ∈ seen then
      .duplicatePlayer
    else
      checkIds (id :: seen) ids

/-- The players of a new game, one next to the other. -/
def placePlayers : List UInt64 → Nat → UnorderedMap UInt64 PlayerGameState
  | [], _ => ∅
  | id :: ids, location =>
    (placePlayers ids (location + 1)).insert id ⟨id, Int32.ofNat location, 0, initialHp⟩

/-- Set up a game for the players. -/
def initializeGame (game : Gamestate) (playerIds : List UInt64) : States × Gamestate :=
  if playerIds.isEmpty then
    (.emptyPlayers, game)
  else if playerIds.length > maxPlayers then
    (.tooManyPlayers, game)
  else if checkIds [] playerIds ≠ .success then
    (checkIds [] playerIds, game)
  else
    (.success, ⟨placePlayers (playerIds.sortOn UInt64.toNat) 0⟩)

def removePlayer (game : Gamestate) (playerId : UInt64) : States × Gamestate :=
  if playerId = 0 then
    (.invalidPlayerId, game)
  else if playerId ∉ game.players then
    (.playerNotFound, game)
  else
    (.success, ⟨game.players.erase playerId⟩)

/-- Move a player by one step up, down, left or right. -/
def movePlayer (game : Gamestate) (playerId : UInt64) (dx dy : Int32) : States × Gamestate :=
  if playerId = 0 then
    (.invalidPlayerId, game)
  else
    match game.players.lookup playerId with
    | none => (.playerNotFound, game)
    | some player =>
      let validXMove := (dx = 1 ∨ dx = -1) ∧ dy = 0
      let validYMove := (dy = 1 ∨ dy = -1) ∧ dx = 0
      if ¬validXMove ∧ ¬validYMove then
        (.invalidMove, game)
      else
        let newX := player.x + dx
        let newY := player.y + dy
        if newX < minPosition ∨ newX > maxPosition ∨ newY < minPosition ∨ newY > maxPosition then
          (.outOfBounds, game)
        else
          (.success, ⟨game.players.assign playerId { player with x := newX, y := newY }⟩)

/-- All the players in the order of their ids. -/
def snapshot (game : Gamestate) : List PlayerGameState :=
  game.players.values.sortOn fun state => state.playerId.toNat

/-- Take the hit points of an attack from a neighbour. -/
def attackPlayer (game : Gamestate) (attackerId targetPlayerId : UInt64) :
    Attackresult × Gamestate :=
  let result := fun state => Attackresult.mk state attackerId targetPlayerId 0 false
  if attackerId = 0 ∨ targetPlayerId = 0 then
    (result .invalidPlayerId, game)
  else if attackerId = targetPlayerId then
    (result .invalidTarget, game)
  else
    match game.players.lookup attackerId with
    | none => (result .attackerNotFound, game)
    | some attacker =>
      match game.players.lookup targetPlayerId with
      | none => (result .targetNotFound, game)
      | some target =>
        if attacker.hp ≤ 0 then
          (result .attackerDead, game)
        else if target.hp ≤ 0 then
          (result .targetDead, game)
        else if (attacker.x - target.x).abs + (attacker.y - target.y).abs > 1 then
          (result .targetOutOfRange, game)
        else
          let hp := target.hp - attackDamage
          ({ result .success with remainingHp := hp, targetEliminated := decide (hp ≤ 0) },
            ⟨game.players.assign targetPlayerId { target with hp }⟩)

/-- The state of one player as `restore` takes it over. -/
def restorePlayer (state : PlayerGameState) : Option PlayerGameState :=
  if state.playerId = 0 then
    none
  else if state.x < minPosition ∨ state.x > maxPosition ∨ state.y < minPosition
      ∨ state.y > maxPosition then
    none
  else if state.hp < 0 ∨ state.hp > initialHp then
    none
  else
    some state

/-- A game from the saved states of its players. -/
def restore (states : List PlayerGameState) : Option Gamestate :=
  if states.length > maxPlayers then
    none
  else
    (AList.enter (fun state => state.playerId) restorePlayer states ∅).map Gamestate.mk

/-! ### Sound games -/

/-- The player stands on the board and has hit points in the range `restorePlayer` accepts. -/
structure Restorable (state : PlayerGameState) : Prop where
  id_ne_zero : state.playerId ≠ 0
  on_board : ¬(state.x < minPosition ∨ state.x > maxPosition ∨ state.y < minPosition
    ∨ state.y > maxPosition)
  hp_in_range : ¬(state.hp < 0 ∨ state.hp > initialHp)

/-- The player is restorable, and its hit points are what attacks left of the initial ones. -/
structure Sound (state : PlayerGameState) : Prop extends Restorable state where
  hp_tens : state.hp.toInt % 10 = 0

theorem restorePlayer_eq_some_iff {state state' : PlayerGameState} :
  restorePlayer state = some state' ↔ Restorable state ∧ state = state'
  := by
  rw [restorePlayer]
  constructor
  · intro h
    split at h
    · cases h
    · next hid =>
      split at h
      · cases h
      · next hboard =>
        split at h
        · cases h
        · next hhp =>
          cases h
          use ⟨hid, hboard, hhp⟩
  · rintro ⟨⟨hid, hboard, hhp⟩, rfl⟩
    rw [if_neg hid, if_neg hboard, if_neg hhp]

theorem hp_in_range {hp : Int32} :
  ¬(hp < 0 ∨ hp > initialHp) ↔ 0 ≤ hp.toInt ∧ hp.toInt ≤ 100
  := by
  have h0 : (0 : Int32).toInt = 0 := by decide
  have h100 : initialHp.toInt = 100 := by decide
  simp only [Int32.lt_iff_toInt_lt, gt_iff_lt, h0, h100]
  omega

/-- An attack on hit points in range does not overflow. -/
theorem toInt_sub_attackDamage {hp : Int32} (hrange : ¬(hp < 0 ∨ hp > initialHp)) :
  (hp - attackDamage).toInt = hp.toInt - 10
  := by
  have h10 : attackDamage.toInt = 10 := by decide
  obtain ⟨hlow, hhigh⟩ := hp_in_range.mp hrange
  rw [Int32.toInt_sub, h10, Int.bmod_eq_of_le (by omega) (by omega)]

/-- Hit points an attack is carried out on stay in range exactly when there are enough of
them. -/
theorem hp_in_range_iff {hp : Int32} (hrange : ¬(hp < 0 ∨ hp > initialHp)) :
  ¬(hp - attackDamage < 0 ∨ hp - attackDamage > initialHp) ↔ attackDamage ≤ hp
  := by
  have h10 : attackDamage.toInt = 10 := by decide
  obtain ⟨hlow, hhigh⟩ := hp_in_range.mp hrange
  rw [hp_in_range, toInt_sub_attackDamage hrange, Int32.le_iff_toInt_le, h10]
  omega

/-- Hit points an attack is allowed to take from are still in range after it. -/
theorem hp_sub_attackDamage {hp : Int32} (hrange : ¬(hp < 0 ∨ hp > initialHp))
    (htens : hp.toInt % 10 = 0) (hpos : ¬hp ≤ 0) :
  ¬(hp - attackDamage < 0 ∨ hp - attackDamage > initialHp)
    ∧ (hp - attackDamage).toInt % 10 = 0
  := by
  have h0 : (0 : Int32).toInt = 0 := by decide
  have h10 : attackDamage.toInt = 10 := by decide
  rw [Int32.le_iff_toInt_le, h0] at hpos
  constructor
  · rw [hp_in_range_iff hrange, Int32.le_iff_toInt_le, h10]
    omega
  · rw [toInt_sub_attackDamage hrange]
    omega

/-! ### New and restored games -/

theorem checkIds_eq_success {seen ids : List UInt64} (hzero : ∀ id ∈ ids, id ≠ 0)
    (hnodup : ids.Nodup) (hseen : ∀ id ∈ ids, id ∉ seen) :
  checkIds seen ids = .success
  := by
  induction ids generalizing seen with
  | nil => rfl
  | cons id ids ih =>
    rw [List.nodup_cons] at hnodup
    rw [checkIds, if_neg (hzero id List.mem_cons_self), if_neg (hseen id List.mem_cons_self)]
    apply ih (fun id' h => hzero id' (List.mem_cons_of_mem id h)) hnodup.2
    intro id' h
    rw [List.mem_cons]
    rintro (rfl | h')
    · apply hnodup.1 h
    · apply hseen id' (List.mem_cons_of_mem id h) h'

/-- The players of a new game stand one next to the other from `location` on. -/
theorem lookup_placePlayers {ids : List UInt64} {location : Nat} {k : UInt64}
    {state : PlayerGameState} (h : (placePlayers ids location).lookup k = some state) :
  k ∈ ids ∧ ∃ n, location ≤ n ∧ n < location + ids.length
    ∧ state = ⟨k, Int32.ofNat n, 0, initialHp⟩
  := by
  induction ids generalizing location with
  | nil => cases h
  | cons id ids ih =>
    rw [placePlayers, AList.lookup_insert_eq_ite] at h
    split at h
    · next hk =>
      subst hk
      cases h
      use List.mem_cons_self, location
      simp
    · obtain ⟨hmem, n, hn, hn', rfl⟩ := ih h
      use List.mem_cons_of_mem id hmem, n
      rw [List.length_cons]
      use by omega, by omega

theorem mem_placePlayers {ids : List UInt64} {location : Nat} {k : UInt64} :
  k ∈ placePlayers ids location ↔ k ∈ ids
  := by
  induction ids generalizing location with
  | nil => simp [placePlayers]
  | cons id ids ih => rw [placePlayers, AList.mem_insert, ih, List.mem_cons]

theorem onBoard_ofNat {n : Nat} (h : n < maxPlayers) :
  ¬(Int32.ofNat n < minPosition ∨ Int32.ofNat n > maxPosition)
  := by
  have h0 : minPosition.toInt = 0 := by decide
  have h100 : maxPosition.toInt = 100 := by decide
  simp only [maxPlayers] at h
  have hn : (Int32.ofNat n).toInt = n := by
    apply Int32.toInt_ofNat_of_lt
    omega
  simp only [Int32.lt_iff_toInt_lt, gt_iff_lt, h0, h100, hn]
  omega

/-- The players of a new game are sound, kept under their ids, and the ones asked for. -/
theorem initializeGame_spec (game : Gamestate) {ids : List UInt64} (hne : ids ≠ [])
    (hlen : ids.length ≤ maxPlayers) (hzero : ∀ id ∈ ids, id ≠ 0) (hnodup : ids.Nodup) :
  (game.initializeGame ids).1 = .success
    ∧ (∀ k, k ∈ (game.initializeGame ids).2.players ↔ k ∈ ids)
    ∧ ∀ k state, (game.initializeGame ids).2.players.lookup k = some state →
      state.playerId = k ∧ Sound state
  := by
  have hcheck : checkIds [] ids = .success := checkIds_eq_success hzero hnodup (by simp)
  have hlen' : ¬ids.length > maxPlayers := by omega
  rw [initializeGame, if_neg (by simpa using hne), if_neg hlen', if_neg (by simp [hcheck])]
  refine ⟨rfl, ?_, ?_⟩
  · intro k
    rw [mem_placePlayers, List.mem_sortOn]
  · intro k state h
    obtain ⟨hk, n, -, hn, rfl⟩ := lookup_placePlayers h
    rw [List.length_sortOn, Nat.zero_add] at hn
    have hboard := onBoard_ofNat (Nat.lt_of_lt_of_le hn hlen)
    rw [List.mem_sortOn] at hk
    use rfl
    refine ⟨⟨hzero k hk, ?_, ?_⟩, ?_⟩
    · rintro (h | h | h | h)
      · apply hboard (.inl h)
      · apply hboard (.inr h)
      · exact absurd h (show ¬(0 : Int32) < minPosition by decide)
      · exact absurd h (show ¬(0 : Int32) > maxPosition by decide)
    · exact show ¬(initialHp < 0 ∨ initialHp > initialHp) by decide
    · exact show initialHp.toInt % 10 = 0 by decide

theorem of_checkIds {seen ids : List UInt64} (h : checkIds seen ids = .success) :
  (∀ id ∈ ids, id ≠ 0) ∧ ids.Nodup ∧ ∀ id ∈ ids, id ∉ seen
  := by
  induction ids generalizing seen with
  | nil => simp
  | cons id ids ih =>
    rw [checkIds] at h
    split at h
    · cases h
    · next hid =>
      split at h
      · cases h
      · next hseen =>
        obtain ⟨hzero, hnodup, hnew⟩ := ih h
        have hfresh : id ∉ ids := fun hmem => hnew id hmem List.mem_cons_self
        refine ⟨List.forall_mem_cons.mpr ⟨hid, hzero⟩, List.nodup_cons.mpr ⟨hfresh, hnodup⟩, ?_⟩
        intro id' hmem hmem'
        rcases List.mem_cons.mp hmem with rfl | hmem
        · apply hseen hmem'
        · apply hnew id' hmem (List.mem_cons_of_mem id hmem')

/-- `initializeGame` does nothing, or the ids are those of players a game can have. -/
theorem initializeGame_cases (game : Gamestate) (ids : List UInt64) :
  (game.initializeGame ids).1 ≠ .success ∧ (game.initializeGame ids).2 = game
    ∨ ids ≠ [] ∧ ids.length ≤ maxPlayers ∧ (∀ id ∈ ids, id ≠ 0) ∧ ids.Nodup
  := by
  rw [initializeGame]
  split
  · left; simp
  · next hne =>
    split
    · left; simp
    · next hlen =>
      split
      · next hcheck =>
        left
        use hcheck
      · next hcheck =>
        right
        obtain ⟨hzero, hnodup, -⟩ := of_checkIds (not_not.mp hcheck)
        use by simpa using hne, by omega

/-- `initializeGame` does not fail otherwise. -/
theorem initializeGame_success {game : Gamestate} {ids : List UInt64}
    (h : (game.initializeGame ids).1 = .success) :
  ids ≠ [] ∧ ids.length ≤ maxPlayers
  := by
  obtain ⟨hfail, -⟩ | ⟨hne, hlen, -, -⟩ := game.initializeGame_cases ids
  · exact absurd h hfail
  · exact ⟨hne, hlen⟩

/-- The lists of players a game is restored from. -/
theorem restore_isSome_iff {states : List PlayerGameState} :
  (restore states).isSome ↔ states.length ≤ maxPlayers
    ∧ (states.map fun state => state.playerId).Nodup ∧ ∀ state ∈ states, Restorable state
  := by
  rw [restore]
  split
  · next h =>
    simp only [Option.isSome_none, Bool.false_eq_true, false_iff]
    rintro ⟨h', -⟩
    omega
  · next h =>
    rw [Option.isSome_map, AList.enter_isSome_iff]
    have hsome : ∀ state, (restorePlayer state).isSome ↔ Restorable state := by
      intro state
      rw [Option.isSome_iff_exists]
      simp [restorePlayer_eq_some_iff]
    simp only [hsome]
    simp
    omega

/-- A restored game has the players it is restored from, each under its id. -/
theorem lookup_restore {states : List PlayerGameState} {game : Gamestate}
    (h : restore states = some game) {k : UInt64} {state : PlayerGameState} :
  game.players.lookup k = some state ↔ state ∈ states ∧ state.playerId = k
  := by
  have hgood : ∀ state ∈ states, Restorable state := by
    apply (restore_isSome_iff.mp _).2.2
    rw [h]
    rfl
  rw [restore] at h
  split at h
  · cases h
  · obtain ⟨players, hplayers, rfl⟩ := Option.map_eq_some_iff.mp h
    rw [AList.lookup_enter hplayers]
    simp only [AList.lookup_empty, reduceCtorEq, false_or, restorePlayer_eq_some_iff]
    constructor
    · rintro ⟨state', hmem, hid, -, rfl⟩
      use hmem
    · rintro ⟨hmem, hid⟩
      use state, hmem, hid, hgood state hmem

theorem size_restore {states : List PlayerGameState} {game : Gamestate}
    (h : restore states = some game) :
  game.players.size = states.length
  := by
  rw [restore] at h
  split at h
  · cases h
  · obtain ⟨players, hplayers, rfl⟩ := Option.map_eq_some_iff.mp h
    rw [AList.size_enter hplayers, AList.size_empty, Nat.zero_add]

/-! ### Snapshots -/

/-- The players are kept under their ids. -/
def Keyed (game : Gamestate) : Prop :=
  ∀ k state, game.players.lookup k = some state → state.playerId = k

theorem Keyed.mem_snapshot {game : Gamestate} (h : game.Keyed) {state : PlayerGameState} :
  state ∈ game.snapshot ↔ game.players.lookup state.playerId = some state
  := by
  rw [snapshot, List.mem_sortOn, AList.mem_values]
  constructor
  · rintro ⟨k, hk⟩
    rw [h k state hk]
    exact hk
  · intro hk
    exact ⟨_, hk⟩

/-- A snapshot is in the order of the ids, without repetition. -/
theorem Keyed.pairwise_snapshot {game : Gamestate} (h : game.Keyed) :
  game.snapshot.Pairwise fun s s' => s.playerId.toNat < s'.playerId.toNat
  := by
  apply List.pairwise_lt_sortOn
  apply AList.nodup_map_values
  intro k k' state state' hk hk' heq
  rw [← h k state hk, ← h k' state' hk']
  apply UInt64.toNat_inj.mp heq

theorem length_snapshot (game : Gamestate) :
  game.snapshot.length = game.players.size
  := by
  rw [snapshot, List.length_sortOn, AList.values, List.length_map]
  rfl

/-- The ids of a snapshot are those of the players. -/
theorem Keyed.mem_ids_snapshot {game : Gamestate} (h : game.Keyed) {k : UInt64} :
  k ∈ game.snapshot.map PlayerGameState.playerId ↔ k ∈ game.players
  := by
  rw [List.mem_map, AList.mem_iff_lookup]
  constructor
  · rintro ⟨state, hstate, rfl⟩
    exact ⟨state, h.mem_snapshot.mp hstate⟩
  · rintro ⟨state, hk⟩
    have hid := h k state hk
    subst hid
    exact ⟨state, h.mem_snapshot.mpr hk, rfl⟩

/-- Games with the same players list them in the same order. -/
theorem map_playerId_snapshot {game game' : Gamestate} (h : game.Keyed) (h' : game'.Keyed)
    (hmem : ∀ k, k ∈ game.players ↔ k ∈ game'.players) :
  game.snapshot.map PlayerGameState.playerId = game'.snapshot.map PlayerGameState.playerId
  := by
  have hlt : ∀ {game : Gamestate}, game.Keyed →
      (game.snapshot.map PlayerGameState.playerId).Pairwise fun id id' =>
        id.toNat < id'.toNat := by
    intro game hgame
    exact List.pairwise_map.mpr hgame.pairwise_snapshot
  apply List.eq_of_mem_iff_of_pairwise_lt (hlt h) (hlt h')
  intro k
  rw [h.mem_ids_snapshot, h'.mem_ids_snapshot, hmem]

/-! ### What a command does -/

/-- A step up, down, left or right. -/
def UnitStep (dx dy : Int32) : Prop :=
  (dx = 1 ∨ dx = -1) ∧ dy = 0 ∨ (dy = 1 ∨ dy = -1) ∧ dx = 0

/-- A move is refused, or it takes a player one step to a place on the board. -/
theorem movePlayer_cases (game : Gamestate) (playerId : UInt64) (dx dy : Int32) :
  (game.movePlayer playerId dx dy).1 ≠ .success ∧ (game.movePlayer playerId dx dy).2 = game
    ∨ ∃ player, game.players.lookup playerId = some player ∧ UnitStep dx dy
      ∧ ¬(player.x + dx < minPosition ∨ player.x + dx > maxPosition
        ∨ player.y + dy < minPosition ∨ player.y + dy > maxPosition)
      ∧ game.movePlayer playerId dx dy = (.success, ⟨game.players.assign playerId
        { player with x := player.x + dx, y := player.y + dy }⟩)
  := by
  rw [movePlayer]
  split
  · left; simp
  · split
    · left; simp
    · next player hplayer =>
      dsimp only
      split
      · left; simp
      · next hstep =>
        split
        · left; simp
        · next hboard =>
          right
          refine ⟨player, hplayer, ?_, hboard, rfl⟩
          rw [UnitStep]
          tauto

/-- An attack is carried out: both players are alive and next to each other. -/
structure Strikes (game : Gamestate) (attackerId targetPlayerId : UInt64)
    (attacker target : PlayerGameState) : Prop where
  attacker_ne_zero : attackerId ≠ 0
  target_ne_zero : targetPlayerId ≠ 0
  ne : attackerId ≠ targetPlayerId
  attacker_lookup : game.players.lookup attackerId = some attacker
  target_lookup : game.players.lookup targetPlayerId = some target
  attacker_alive : ¬attacker.hp ≤ 0
  target_alive : ¬target.hp ≤ 0
  near : ¬(attacker.x - target.x).abs + (attacker.y - target.y).abs > 1

/-- An attack is refused, or it takes hit points from the target. -/
theorem attackPlayer_cases (game : Gamestate) (attackerId targetPlayerId : UInt64) :
  (game.attackPlayer attackerId targetPlayerId).1.state ≠ .success
      ∧ (game.attackPlayer attackerId targetPlayerId).2 = game
    ∨ ∃ attacker target, game.Strikes attackerId targetPlayerId attacker target
      ∧ game.attackPlayer attackerId targetPlayerId
        = (⟨.success, attackerId, targetPlayerId, target.hp - attackDamage,
            decide (target.hp - attackDamage ≤ 0)⟩,
          ⟨game.players.assign targetPlayerId { target with hp := target.hp - attackDamage }⟩)
  := by
  rw [attackPlayer]
  dsimp only
  split
  · left; simp
  · next hzero =>
    rw [not_or] at hzero
    split
    · left; simp
    · next hne =>
      split
      · left; simp
      · next attacker hattacker =>
        split
        · left; simp
        · next target htarget =>
          split
          · left; simp
          · next hattackerAlive =>
            split
            · left; simp
            · next htargetAlive =>
              split
              · left; simp
              · next hnear =>
                right
                use attacker, target
                use ⟨hzero.1, hzero.2, hne, hattacker, htarget, hattackerAlive, htargetAlive,
                  hnear⟩

/-- An attack that is carried out succeeds. -/
theorem attackPlayer_of_strikes {game : Gamestate} {attackerId targetPlayerId : UInt64}
    {attacker target : PlayerGameState}
    (h : game.Strikes attackerId targetPlayerId attacker target) :
  (game.attackPlayer attackerId targetPlayerId).1.state = .success
  := by
  rw [attackPlayer]
  simp only [h.attacker_lookup, h.target_lookup, h.attacker_ne_zero, h.target_ne_zero, h.ne,
    h.attacker_alive, h.target_alive, if_neg h.near, or_self, if_false]

/-- The game is unchanged, or one player is changed, and stays sound if it was. -/
def Changes (game game' : Gamestate) : Prop :=
  game' = game
    ∨ ∃ k state state', game.players.lookup k = some state
      ∧ game' = ⟨game.players.assign k state'⟩
      ∧ state'.playerId = state.playerId ∧ (Sound state → Sound state')

theorem movePlayer_changes (game : Gamestate) (playerId : UInt64) (dx dy : Int32) :
  game.Changes (game.movePlayer playerId dx dy).2
  := by
  obtain ⟨-, hsame⟩ | ⟨player, hplayer, -, hboard, hmove⟩ := game.movePlayer_cases playerId dx dy
  · left
    exact hsame
  · right
    rw [hmove]
    refine ⟨playerId, player, _, hplayer, rfl, rfl, ?_⟩
    rintro ⟨⟨hid, -, hhp⟩, htens⟩
    use ⟨hid, hboard, hhp⟩

theorem attackPlayer_changes (game : Gamestate) (attackerId targetPlayerId : UInt64) :
  game.Changes (game.attackPlayer attackerId targetPlayerId).2
  := by
  obtain ⟨-, hsame⟩ | ⟨attacker, target, hstrikes, hattack⟩ :=
    game.attackPlayer_cases attackerId targetPlayerId
  · left
    exact hsame
  · right
    rw [hattack]
    refine ⟨targetPlayerId, target, _, hstrikes.target_lookup, rfl, rfl, ?_⟩
    rintro ⟨⟨hid, hboard, hhp⟩, htens⟩
    obtain ⟨hhp', htens'⟩ := hp_sub_attackDamage hhp htens hstrikes.target_alive
    use ⟨hid, hboard, hhp'⟩

theorem Changes.mem_iff {game game' : Gamestate} (h : game.Changes game') (k : UInt64) :
  k ∈ game'.players ↔ k ∈ game.players
  := by
  obtain rfl | ⟨k', state, state', hstate, rfl, -, -⟩ := h
  · rfl
  · rw [AList.mem_assign]

/-- A property of single players that a changed player keeps is kept by all. -/
theorem Changes.forall {game game' : Gamestate} (h : game.Changes game')
    {P : UInt64 → PlayerGameState → Prop}
    (hP : ∀ k state state', state'.playerId = state.playerId → (Sound state → Sound state') →
      P k state → P k state')
    (hgame : ∀ k state, game.players.lookup k = some state → P k state) :
  ∀ k state, game'.players.lookup k = some state → P k state
  := by
  obtain rfl | ⟨k', state, state', hstate, rfl, hid, hsound⟩ := h
  · exact hgame
  · intro k state'' h
    dsimp only at h
    rw [AList.lookup_assign_of_mem (AList.mem_iff_lookup.mpr ⟨state, hstate⟩)] at h
    split at h
    · next hk =>
      subst hk
      cases h
      apply hP k state state' hid hsound (hgame k state hstate)
    · apply hgame k state'' h

end Gamestate

end RoomServer
