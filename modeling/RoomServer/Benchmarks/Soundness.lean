import RoomServer.Benchmarks.Accounting

/-!
# The accounting over whole runs

A turn of the loop keeps `Accounted`, or fails the run: the phases change between readings of
the clock at which heartbeats are sent, so that the time of a heartbeat tells the phase in which
it was sent.  This needs that the warm up and the measuring last some time, which a configuration
that is accepted does not give: a duration, or the end of a phase, that the clock cannot hold may
lie in the past.  `Representable` excludes this.
-/

namespace RoomServer

namespace LoadGen

variable {now : Time} {gen gen' : LoadGen}

/-! ### Durations -/

/-- The clock can hold the time that lies a count of milliseconds after a reading. -/
def Reaches (now : Time) (count : UInt64) : Prop :=
  now.toInt + count.toNat * 1000000 < 2 ^ 63

/-- As many milliseconds as the clock can hold are that many nanoseconds. -/
theorem toInt_milliseconds {count : UInt64} (h : count.toNat * 1000000 < 2 ^ 63) :
  (milliseconds count).toInt = count.toNat * 1000000
  := by
  have hsigned : count.toInt64.toInt = count.toNat := by
    change count.toBitVec.toInt = count.toBitVec.toNat
    apply BitVec.toInt_eq_toNat_of_lt
    have : count.toBitVec.toNat * 1000000 < 2 ^ 63 := h
    omega
  have hmillion : (1000000 : Int64).toInt = 1000000 := by decide
  rw [milliseconds, Int64.toInt_mul, hsigned, hmillion]
  apply Int.bmod_eq_of_le_mul_two
  · omega
  · omega

/-- A phase that ends within the range of the clock ends after it has begun. -/
theorem Reaches.lt_add {count : UInt64} (h : Reaches now count) (hnow : 0 ≤ now)
    (hcount : count ≠ 0) :
  now < now + milliseconds count
  := by
  have hpos : count.toNat ≠ 0 := fun hzero => hcount (UInt64.toNat_inj.mp hzero)
  have hstart : 0 ≤ now.toInt := Int64.le_iff_toInt_le.mp hnow
  rw [Reaches] at h
  have hrange : count.toNat * 1000000 < 2 ^ 63 := by omega
  have hduration := toInt_milliseconds hrange
  rw [Int64.lt_iff_toInt_lt, Int64.toInt_add, hduration, Int.bmod_eq_of_le_mul_two]
  · omega
  · omega
  · omega

/-- The phase that a turn goes on to ends within the range of the clock, if it is the warm up or
the measuring. -/
structure Representable (gen : LoadGen) (turn : Turn) : Prop where
  warmUp : gen.state = .rampUp → gen.allClientsActive = true →
    Reaches turn.now gen.config.warmUpMs
  measure : gen.state = .warmUp → gen.phaseDeadline ≤ turn.now →
    Reaches turn.now gen.config.measureMs

instance (now : Time) (count : UInt64) : Decidable (Reaches now count) :=
  inferInstanceAs (Decidable (now.toInt + count.toNat * 1000000 < 2 ^ 63))

instance (gen : LoadGen) (turn : Turn) : Decidable (gen.Representable turn) :=
  decidable_of_iff
    ((gen.state = .rampUp → gen.allClientsActive = true → Reaches turn.now gen.config.warmUpMs)
      ∧ (gen.state = .warmUp → gen.phaseDeadline ≤ turn.now →
        Reaches turn.now gen.config.measureMs))
    ⟨fun ⟨hwarmUp, hmeasure⟩ => ⟨hwarmUp, hmeasure⟩, fun ⟨hwarmUp, hmeasure⟩ => ⟨hwarmUp, hmeasure⟩⟩

/-! ### Phases -/

theorem Timed.mono {now' : Time} (h : gen.Timed now) (hle : now ≤ now') :
  gen.Timed now'
  := by
  rw [Timed] at h ⊢
  cases hstate : gen.state with
  | measure =>
    rw [hstate] at h
    obtain ⟨hpos, hstarted, hfinished⟩ := h
    exact ⟨hpos, Int64.le_trans hstarted hle, hfinished⟩
  | created | rampUp | warmUp | drain | finished | failed =>
    rw [hstate] at h
    exact h

/-- The accounting at a later reading of the clock. -/
theorem Accounted.mono {now' : Time} (h : Accounted now gen) (hle : now ≤ now') :
  Accounted now' gen
  := by
  apply h.of_views
  case hsame => exact ⟨rfl, rfl, rfl, rfl⟩
  case hclients => exact .refl _
  case hheartbeat =>
    intro heartbeat hok
    exact ⟨rfl, hok.phase, fun hstate => Int64.le_trans (hok.sent hstate) hle, hok.before⟩
  case htimed => apply h.timed.mono hle

/-- Before the measuring starts nothing counts as sent while measuring. -/
theorem measured_of_not_started (h : gen.measureStartedTime = 0) (time : Time) :
  gen.measured time = false
  := by
  simp [measured, h]

/-- Skipping moves changes neither the heartbeats nor the state of a client. -/
theorem view_skipMoves (config : Config) (client : Client) :
  view ((skipMoves config now client).getD client) = view client
  := by
  rw [skipMoves]
  split
  · rfl
  · cases whileDue (milliseconds config.moveIntervalMs) now client.nextMoveTime with
    | none => rfl
    | some next => rfl

theorem transitionTo_warmUp (h : Accounted now gen) (hstate : gen.state = .rampUp)
    (hnow : 0 ≤ now) (hreaches : Reaches now gen.config.warmUpMs)
    (htransition : gen.transitionTo .warmUp now = some gen') :
  Accounted now gen' ∧ gen'.Ready now
  := by
  have htimed := h.timed
  rw [Timed, hstate] at htimed
  obtain ⟨hstarted, hfinished⟩ := htimed
  have hlasting := hreaches.lt_add hnow h.lasting.warmUp
  rw [transitionTo] at htransition
  split at htransition
  · cases htransition
    constructor
    · apply h.of_views
      case hsame => exact ⟨rfl, rfl, rfl, rfl⟩
      case hclients =>
        apply List.Perm.of_eq
        simp only [AList.values, AList.mapValues, List.map_map]
        apply List.map_congr_left
        intro e _
        apply view_skipMoves gen.config e.2
      case hheartbeat =>
        intro heartbeat hok
        refine ⟨rfl, hok.phase, ?_, ?_⟩
        · rintro ⟨⟩
        · intro _
          apply Int64.lt_of_le_of_lt (hok.sent hstate) hlasting
      case htimed => exact ⟨hstarted, hfinished, Int64.lt_of_le_of_lt hnow hlasting⟩
    · constructor
      · rw [measured_of_not_started (by exact hstarted)]
        simp
      · exact fun _ => hlasting
  · cases htransition

theorem transitionTo_measure (h : Accounted now gen) (hstate : gen.state = .warmUp)
    (hdue : gen.phaseDeadline ≤ now) (hreaches : Reaches now gen.config.measureMs)
    (htransition : gen.transitionTo .measure now = some gen') :
  Accounted now gen' ∧ gen'.Ready now
  := by
  have htimed := h.timed
  rw [Timed, hstate] at htimed
  obtain ⟨hstarted, hfinished, hdeadline⟩ := htimed
  have hpos : 0 < now := Int64.lt_of_lt_of_le hdeadline hdue
  have hlasting := hreaches.lt_add (Int64.le_of_lt hpos) h.lasting.measure
  cases htransition
  constructor
  · apply h.of_views
    case hsame => exact ⟨rfl, rfl, rfl, rfl⟩
    case hclients => exact .refl _
    case hheartbeat =>
      intro heartbeat hok
      have hbefore : heartbeat.sentTime < now :=
        Int64.lt_of_lt_of_le (hok.before (.inl hstate)) hdue
      have hnot : LoadGen.measured { gen with
          state := .measure
          measureStartedTime := now
          phaseDeadline := now + milliseconds gen.config.measureMs }
          heartbeat.sentTime = false := by
        simp [measured, hbefore]
      have hphase := hok.phase
      rw [measured_of_not_started hstarted] at hphase ⊢
      refine ⟨hnot, ?_, ?_, ?_⟩
      · rw [hnot]
        exact hphase
      · rintro ⟨⟩
      · exact fun _ => Int64.lt_trans hbefore hlasting
    case htimed => exact ⟨hpos, Int64.le_rfl, hfinished⟩
  · constructor
    · simp [measured, hfinished, (Int64.ne_of_lt hpos).symm]
    · exact fun _ => hlasting

theorem transitionTo_drain (h : Accounted now gen) (hstate : gen.state = .measure)
    (hdue : gen.phaseDeadline ≤ now) (htransition : gen.transitionTo .drain now = some gen') :
  Accounted now gen'
  := by
  have htimed := h.timed
  rw [Timed, hstate] at htimed
  obtain ⟨hpos, hstarted, hfinished⟩ := htimed
  cases htransition
  apply h.of_views
  case hsame => exact ⟨rfl, rfl, rfl, rfl⟩
  case hclients => exact .refl _
  case hheartbeat =>
    intro heartbeat hok
    have hbefore : heartbeat.sentTime < now :=
      Int64.lt_of_lt_of_le (hok.before (.inr hstate)) hdue
    have hsame : LoadGen.measured { gen with
        state := .drain
        measureFinishedTime := now
        phaseDeadline := now + milliseconds gen.config.drainMs } heartbeat.sentTime
        = gen.measured heartbeat.sentTime := by
      simp [measured, hfinished, hbefore]
    refine ⟨hsame, ?_, ?_, ?_⟩
    · rw [hsame]
      apply hok.phase
    · rintro ⟨⟩
    · simp
  case htimed => trivial

theorem transitionTo_finished (h : Accounted now gen)
    (htransition : gen.transitionTo .finished now = some gen') :
  Accounted now gen'
  := by
  cases htransition
  apply h.of_views
  case hsame => exact ⟨rfl, rfl, rfl, rfl⟩
  case hclients => exact .refl _
  case hheartbeat =>
    intro heartbeat hok
    refine ⟨rfl, hok.phase, ?_, ?_⟩
    · rintro ⟨⟩
    · simp
  case htimed => trivial

/-- A state between the two parts of a turn: clients are driven when it is ready. -/
structure Begun (gen : LoadGen) (now : Time) : Prop where
  accounted : Accounted now gen
  ready : gen.state = .rampUp ∨ gen.state = .warmUp ∨ gen.state = .measure → gen.Ready now

/-- In these states the deadline of the phase is still to come. -/
theorem ready_of_accounted (h : Accounted now gen)
    (hstate : gen.state = .rampUp ∨ gen.state = .warmUp ∨ gen.state = .measure)
    (hdue : gen.state ≠ .rampUp → ¬gen.phaseDeadline ≤ now) :
  gen.Ready now
  := by
  have htimed := h.timed
  rw [Timed] at htimed
  obtain hstate | hstate | hstate := hstate <;> rw [hstate] at htimed
  · constructor
    · rw [measured_of_not_started htimed.1, hstate]
      simp
    · simp [hstate]
  · constructor
    · rw [measured_of_not_started htimed.1, hstate]
      simp
    · exact fun _ => Int64.not_le.mp (hdue (by simp [hstate]))
  · obtain ⟨hpos, hstarted, hfinished⟩ := htimed
    constructor
    · simp [measured, hstate, hfinished, hstarted, (Int64.ne_of_lt hpos).symm]
    · exact fun _ => Int64.not_le.mp (hdue (by simp [hstate]))

/-- A turn in the ramp up. -/
theorem beginTurn_rampUp {platform : Platform} {turn : Turn} (h : Accounted turn.now gen)
    (hnow : 0 ≤ turn.now) (hrepresentable : gen.Representable turn) (hstate : gen.state = .rampUp)
    {gen₁ : LoadGen} (hstart : gen.startDueClients platform turn.now turn.connects = (true, gen₁))
    (hbegin : (if gen₁.allClientsActive then gen₁.transitionTo .warmUp turn.now else some gen₁)
      = some gen') :
  gen'.Begun turn.now
  := by
  obtain ⟨h₁, hstate₁⟩ := startDueClients_accounted h hstart
  rw [hstate] at hstate₁
  split at hbegin
  next hactive =>
    obtain rfl := startDueClients_of_allClientsActive hstart hactive
    have hreaches := hrepresentable.warmUp hstate hactive
    obtain ⟨h', hready⟩ := transitionTo_warmUp h₁ hstate₁ hnow hreaches hbegin
    exact ⟨h', fun _ => hready⟩
  next =>
    cases hbegin
    exact ⟨h₁, fun hready => ready_of_accounted h₁ hready (by simp [hstate₁])⟩

theorem beginTurn_begun {platform : Platform} {turn : Turn} (h : Accounted turn.now gen)
    (hnow : 0 ≤ turn.now) (hrepresentable : gen.Representable turn)
    (hbegin : gen.beginTurn platform turn = some gen') :
  gen'.state = .failed ∨ gen'.Begun turn.now
  := by
  rw [beginTurn] at hbegin
  split at hbegin
  next hstate =>
    split at hbegin
    next gen₁ hstart =>
      cases hbegin
      exact .inl rfl
    next gen₁ hstart =>
      exact .inr (beginTurn_rampUp h hnow hrepresentable hstate hstart hbegin)
  next hstate =>
    right
    split at hbegin
    next hdue =>
      have hreaches := hrepresentable.measure hstate hdue
      obtain ⟨h', hready⟩ := transitionTo_measure h hstate hdue hreaches hbegin
      exact ⟨h', fun _ => hready⟩
    next hdue =>
      cases hbegin
      exact ⟨h, fun hready => ready_of_accounted h hready fun _ => hdue⟩
  next hstate =>
    right
    split at hbegin
    next hdue =>
      have hdrain := transitionTo_drain h hstate hdue hbegin
      cases hbegin
      use hdrain
      simp
    next hdue =>
      cases hbegin
      exact ⟨h, fun hready => ready_of_accounted h hready fun _ => hdue⟩
  next hstate =>
    right
    split at hbegin
    · have hfinish := transitionTo_finished h hbegin
      cases hbegin
      use hfinish
      simp
    · cases hbegin
      use h
      simp [hstate]
  next hstate =>
    have htimed := h.timed
    rw [Timed, hstate] at htimed
    apply htimed.elim
  next hstate =>
    cases hbegin
    right
    use h
    simp [hstate]
  next hstate =>
    cases hbegin
    exact .inl hstate

/-! ### Turns -/

/-- The invariant does not depend on the order of the clients. -/
theorem Begun.reorder (h : gen.Begun now) (hreordered : gen.Reordered gen') :
  gen'.Begun now
  := by
  rw [hreordered.rest]
  constructor
  case accounted =>
    apply h.accounted.of_views
    case hsame => exact ⟨rfl, rfl, rfl, rfl⟩
    case hclients => apply (hreordered.clients.perm.symm.map Sigma.snd).map view
    case hheartbeat => exact fun heartbeat hok => ⟨rfl, hok.phase, hok.sent, hok.before⟩
    case htimed => apply h.accounted.timed
  case ready =>
    intro hstate
    obtain ⟨hmeasured, hbefore⟩ := h.ready hstate
    exact ⟨hmeasured, hbefore⟩

theorem checkClientDeadlines_cases (gen : LoadGen) (now : Time) :
  gen.checkClientDeadlines now = gen ∨ (gen.checkClientDeadlines now).state = .failed
  := by
  rw [checkClientDeadlines]
  split
  · exact .inl rfl
  · exact .inr (state_failClient _ _ _)

theorem finishTurn_accounted {turn : Turn} (h : gen.Begun turn.now)
    (hfinish : gen.finishTurn turn = some gen') :
  gen'.state = .failed ∨ Accounted turn.now gen'
  := by
  rw [finishTurn] at hfinish
  split at hfinish
  · cases hfinish
    exact .inr h.accounted
  dsimp only at hfinish
  split at hfinish
  next hfailed =>
    cases hfinish
    exact .inl hfailed
  next hnot =>
    obtain hsame | hfailed := checkClientDeadlines_cases gen turn.now
    · rw [hsame] at hfinish
      obtain ⟨driven, hdriven, heq⟩ := Option.map_eq_some_iff.mp hfinish
      have hdrive : driven.state = .failed ∨ Accounted turn.now driven := by
        split at hdriven
        next hstate => apply driveActiveClients_accounted h.accounted (h.ready hstate) hdriven
        next hstate =>
          cases hdriven
          exact .inr h.accounted
      split at heq
      next hfailed =>
        cases heq
        exact .inl hfailed
      next hgoing =>
        have haccounted := hdrive.resolve_left hgoing
        split at heq
        next polled hpoll =>
          cases heq
          exact .inr (pollOnce_accounted haccounted hpoll)
        next polled hpoll =>
          cases heq
          exact .inl rfl
    · exact absurd hfailed hnot

/-- The first reading of the clock in a turn is not later than the last. -/
theorem Turns.now_le {platform : Platform} {s s' : LoadGen × Time} {turn : Turn}
    (h : Turns platform s turn s') :
  s.2 ≤ turn.now ∧ turn.now ≤ s'.2
  := by
  have hlast := h.last
  have hpairs := List.isChain_iff_pairwise.mp h.monotone
  obtain ⟨rest, hrest⟩ : ∃ rest, turn.readings = turn.now :: rest := by
    rw [Turn.readings]
    split
    · exact ⟨_, rfl⟩
    · exact ⟨_, rfl⟩
  rw [hrest] at hlast hpairs
  rw [List.pairwise_cons, List.pairwise_cons] at hpairs
  obtain ⟨hfirst, hnow, -⟩ := hpairs
  constructor
  · apply hfirst _ List.mem_cons_self
  · rw [hlast, List.getLastD_cons]
    rcases List.mem_cons.mp List.getLastD_mem_cons with heq | hmem
    · rw [heq]
      exact Int64.le_rfl
    · apply hnow _ hmem

/-- A turn keeps the invariant, or fails the run. -/
theorem Turns.accounted {platform : Platform} {s s' : LoadGen × Time} {turn : Turn}
    (h : Turns platform s turn s') (hnow : 0 ≤ s.2) (hs : Accounted s.2 s.1)
    (hrepresentable : s.1.Representable turn) :
  s'.1.state = .failed ∨ Accounted s'.2 s'.1
  := by
  obtain ⟨hfirst, hlast⟩ := h.now_le
  obtain ⟨begun, reordered, hbegin, hreordered, hfinish⟩ := h.turn
  have hstart := Int64.le_trans hnow hfirst
  rcases beginTurn_begun (hs.mono hfirst) hstart hrepresentable hbegin with hfailed | hbegun
  · left
    have hstate : reordered.state = .failed := by
      rw [hreordered.rest]
      exact hfailed
    rw [finishTurn, if_pos (.inr hstate)] at hfinish
    cases hfinish
    exact hstate
  · rcases finishTurn_accounted (hbegun.reorder hreordered) hfinish with hfailed | haccounted
    · exact .inl hfailed
    · exact .inr (haccounted.mono hlast)

theorem accounted_of_initial {config : Config} (hlasting : Lasting config)
    (h : (LoadGen.new config).transitionTo .rampUp now = some gen) :
  Accounted now gen
  := by
  rw [← Option.some.inj h]
  constructor
  case toBalanced =>
    constructor
    · rfl
    · rfl
    · exact ⟨rfl, by simp [LoadGen.new]⟩
    · rfl
    · rfl
  case sent => rintro client ⟨⟩
  case timed => exact ⟨rfl, rfl⟩
  case lasting => exact hlasting

/-- Only accepted configurations run. -/
theorem validateConfig_of_reachable {platform : Platform} {config : Config}
    {C : LoadGen × Time → Turn → Prop} {s : LoadGen × Time}
    (hs : (running platform config).ReachableBy C s) :
  validateConfig platform.inetPton config
  := by
  apply hs.invariant
  · exact fun s hinitial => hinitial.1
  · exact fun _ _ _ hvalid _ _ => hvalid

theorem Lasting.of_validateConfig {inetPton : String → Bool} {config : Config}
    (h : validateConfig inetPton config) :
  Lasting config
  := by
  simp only [validateConfig, decide_eq_true_eq] at h
  obtain ⟨-, -, -, -, -, -, -, -, -, -, -, -, -, hwarmUp, hmeasure, -⟩ := h
  exact ⟨hwarmUp, hmeasure⟩

/-- Every run of representable turns that has not failed is accounted for. -/
theorem accounted_of_reachable {platform : Platform} {config : Config} {s : LoadGen × Time}
    (hs : (running platform config).ReachableBy (fun s turn => s.1.Representable turn) s) :
  s.1.state = .failed ∨ Accounted s.2 s.1
  := by
  have hinvariant : 0 ≤ s.2 ∧ (s.1.state = .failed ∨ Accounted s.2 s.1) := by
    apply hs.invariant (I := fun s => 0 ≤ s.2 ∧ (s.1.state = .failed ∨ Accounted s.2 s.1))
    · rintro ⟨gen, now⟩ ⟨hvalid, hnow, hnew⟩
      use hnow
      right
      apply accounted_of_initial (.of_validateConfig hvalid) hnew
    · intro s turn s' ⟨hnow, hs⟩ hrepresentable h
      obtain ⟨hfirst, hlast⟩ := h.now_le
      use Int64.le_trans hnow (Int64.le_trans hfirst hlast)
      apply h.accounted hnow (hs.resolve_left h.runs.2) hrepresentable
  apply hinvariant.2

/-! ### Soundness -/

/-- What is accounted for is sound: without pending heartbeats none is pending that was sent while
measuring. -/
theorem Accounted.sound (h : Accounted now gen) :
  gen.Sound
  := by
  constructor
  case moves => apply h.moves
  case heartbeats => apply h.heartbeats
  case acks => apply h.counted
  case joins => apply h.joins
  case verdict =>
    intro _ hnone
    have hpending : gen.pendingMeasured = 0 := by
      apply List.sum_eq_zero
      intro count hcount
      obtain ⟨client, hclient, rfl⟩ := List.mem_map.mp hcount
      have hempty : client.pendingHeartbeats.values = [] := by
        apply List.length_eq_zero_iff.mp
        rw [AList.values, List.length_map]
        apply hnone client hclient
      rw [measuredPending, hempty, List.countP_nil]
    have hmoves := h.moves
    have hheartbeats := h.heartbeats
    constructor
    · rw [hheartbeats, hpending, Nat.add_zero]
    · simp only [moveAccountingValid, decide_eq_true_eq]
      omega

/-- With sound accounting the verdict is passed whenever the other checks are: of a workload that
is completed no heartbeat is left unbalanced and no move unaccounted for. -/
theorem Sound.correctnessPassed_iff (h : gen.Sound) :
  gen.finalizeResult.result.correctnessPassed = true
    ↔ gen.finalizeResult.result.workloadCompleted = true
      ∧ gen.result.connectionFailures = 0 ∧ gen.result.joinFailures = 0
      ∧ gen.result.plannedMoveFrames > 0 ∧ gen.result.sentMoveFrames > 0
      ∧ gen.result.heartbeatFrames > 0 ∧ gen.heartbeatRttUs.length = gen.result.heartbeatAcks
      ∧ gen.result.snapshotFrames > 0 ∧ gen.result.tickGaps = 0 ∧ gen.result.errorFrames = 0
      ∧ gen.result.protocolErrors = 0 ∧ gen.result.unexpectedCloses = 0
  := by
  have hverdict : gen.finalizeResult.result.workloadCompleted = true →
      gen.result.heartbeatFrames = gen.result.heartbeatAcks ∧ gen.moveAccountingValid = true := by
    intro hcompleted
    simp only [finalizeResult, decide_eq_true_eq, List.all_eq_true] at hcompleted
    obtain ⟨hfinished, -, hclients, -⟩ := hcompleted
    apply h.verdict hfinished fun client hclient => (hclients client hclient).1
  constructor
  · intro hpassed
    simp only [finalizeResult, decide_eq_true_eq] at hpassed ⊢
    tauto
  · intro hchecks
    obtain ⟨hheartbeats, hmoves⟩ := hverdict hchecks.1
    simp only [finalizeResult, decide_eq_true_eq] at hchecks ⊢
    tauto

/-! ### Runs that are computed -/

/-- The turns one after the other, as long as the run goes on, they pass a check and the clock does
not go back. -/
def runTurns (platform : Platform) (check : LoadGen → Turn → Bool) :
    LoadGen × Time → List Turn → Option (LoadGen × Time)
  | s, [] => some s
  | s, turn :: turns =>
    if (s.1.state = .finished ∨ s.1.state = .failed)
        ∨ ¬(check s.1 turn ∧ (s.2 :: turn.readings).IsChain (· ≤ ·)) then
      none
    else
      match s.1.beginTurn platform turn with
      | none => none
      | some begun =>
        match begun.finishTurn turn with
        | none => none
        | some gen => runTurns platform check (gen, turn.readings.getLastD s.2) turns

theorem Reordered.refl (gen : LoadGen) :
  gen.Reordered gen
  := ⟨AList.Similar.refl _, rfl⟩

theorem reachable_of_runTurns {platform : Platform} {config : Config}
    {C : LoadGen × Time → Turn → Prop} {check : LoadGen → Turn → Bool}
    (hcheck : ∀ s turn, check s.1 turn = true → C s turn) {s s' : LoadGen × Time}
    {turns : List Turn} (hs : (running platform config).ReachableBy C s)
    (hrun : runTurns platform check s turns = some s') :
  (running platform config).ReachableBy C s'
  := by
  induction turns generalizing s with
  | nil =>
    cases hrun
    exact hs
  | cons turn turns ih =>
    rw [runTurns] at hrun
    split at hrun
    · cases hrun
    next hguard =>
    rw [not_or, not_or, not_not] at hguard
    obtain ⟨hruns, hchecked, hmonotone⟩ := hguard
    split at hrun
    · cases hrun
    next begun hbegin =>
    split at hrun
    · cases hrun
    next gen hfinish =>
    apply ih _ hrun
    apply System.ReachableBy.step hs (hcheck s turn hchecked)
    exact ⟨hruns, hmonotone, rfl, begun, begun, hbegin, .refl begun, hfinish⟩

def localPlatform : Platform where
  inetPton address := address == "127.0.0.1"
  connectInterval connectionsPerSecond := Int64.ofNat (1000000000 / connectionsPerSecond)

/-- One client in a room of its own. -/
def oneClient (warmUpMs : UInt64) : Config where
  address := "127.0.0.1"
  port := 9000
  clientCount := 1
  roomCapacity := 1
  connectionsPerSecond := 1
  connectTimeoutMs := 1000
  joinTimeoutMs := 1000
  moveIntervalMs := 50
  heartbeatIntervalMs := 50
  warmUpMs := warmUpMs
  measureMs := 1000
  drainMs := 1000

/-- A turn in which the connection that starts has the descriptor 3. -/
def turnAt (now : Time) (events : List PollEvent) : Turn where
  now := now
  connects _ := .started 3
  sends _ := []
  poll := .events events

/-- A frame comes in on the descriptor 3. -/
def frameAt (now : Time) (type : MessageType) (payload : Bytes) : PollEvent where
  fd := 3
  epollIn := true
  now := now
  receives := [.received ((Codec.encode type.toU16 payload).getD [])]

/-- The connection is there, and the client joins its room, of which it is the only member. -/
def joinTurns : List Turn :=
  [turnAt 0 [{ fd := 3, epollOut := true, now := 0 }],
    turnAt 1 [frameAt 1 .joinOk (Protocol.appendU32 1 ++ Protocol.appendU64 1
      ++ Protocol.appendText [65] ++ Protocol.appendU16 1 ++ Protocol.appendU64 1
      ++ Protocol.appendText [65])]]

/-- The run starts when the clock reads zero. -/
def startOf (config : Config) : LoadGen × Time :=
  ({ LoadGen.new config with state := .rampUp }, 0)

theorem reachable_startOf {config : Config} {C : LoadGen × Time → Turn → Prop}
    (h : validateConfig localPlatform.inetPton config = true) :
  (running localPlatform config).ReachableBy C (startOf config)
  := .initial ⟨h, Int64.le_rfl, rfl⟩

/-- In every run whose warm up and measuring end within the range of the clock, the accounting is
sound as long as the run has not failed. -/
theorem sound_of_representable {platform : Platform} {config : Config} {s : LoadGen × Time}
    (hs : (running platform config).ReachableBy (fun s turn => s.1.Representable turn) s)
    (hstate : s.1.state ≠ .failed) :
  s.1.Sound
  := by
  apply ((accounted_of_reachable hs).resolve_left hstate).sound

/-- A heartbeat is sent and acknowledged while warming up; the next one is sent while measuring. -/
theorem sound_of_representable_measuring :
  ∃ s, (running localPlatform (oneClient 50)).ReachableBy (fun s turn => s.1.Representable turn) s
    ∧ s.1.result.heartbeatFrames = 1 ∧ s.1.Sound
  := by
  have hrun : (runTurns localPlatform (fun gen turn => gen.Representable turn)
      (startOf (oneClient 50))
      (joinTurns ++ [turnAt 50000001 [frameAt 50000002 .heartbeatAck (Protocol.appendU64 1)],
        turnAt 100000002 []])).map (fun s => (s.1.state, s.1.result.heartbeatFrames))
      = some (.measure, 1) := by decide +kernel
  obtain ⟨s, hs, heq⟩ := Option.map_eq_some_iff.mp hrun
  simp only [Prod.mk.injEq] at heq
  obtain ⟨hstate, hframes⟩ := heq
  have hreachable := reachable_of_runTurns (fun s turn h => of_decide_eq_true h)
    (reachable_startOf (by decide)) hs
  use s, hreachable, hframes
  apply sound_of_representable hreachable
  rw [hstate]
  decide

/-- With a warm up of -1 ms the measuring starts at the very time of a heartbeat that was sent while
warming up: its acknowledgement is counted, the heartbeat was not. -/
theorem not_sound_of_negative_warmUp :
  ∃ s, (running localPlatform (oneClient 18446744073709551615)).Reachable s
    ∧ s.1.state = .measure ∧ s.1.result.heartbeatFrames = 0 ∧ s.1.result.heartbeatAcks = 1
    ∧ ¬s.1.Sound
  := by
  have hrun : (runTurns localPlatform (fun _ _ => true) (startOf (oneClient 18446744073709551615))
      (joinTurns ++ [turnAt 50000001 [],
        turnAt 50000001 [frameAt 50000001 .heartbeatAck (Protocol.appendU64 1)]])).map (fun s =>
          (s.1.state, s.1.result.heartbeatFrames, s.1.result.heartbeatAcks))
      = some (.measure, 0, 1) := by decide +kernel
  obtain ⟨s, hs, heq⟩ := Option.map_eq_some_iff.mp hrun
  simp only [Prod.mk.injEq] at heq
  obtain ⟨hstate, hframes, hacks⟩ := heq
  have hreachable := reachable_of_runTurns (fun _ _ _ => trivial) (reachable_startOf (by decide)) hs
  use s, hreachable, hstate, hframes, hacks
  intro hsound
  have := hsound.heartbeats
  omega

end LoadGen

end RoomServer
