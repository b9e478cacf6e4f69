import RoomServer.Benchmarks.Soundness

/-!
# The waits of the load generator

Before a turn of its loop polls the sockets, it computes how long the poll may wait: until the
first of the times at which a later turn would connect, change the phase, give up a client or send
something.  A turn that begins before that time, with no events and with sockets that take
nothing, leaves the load generator as it is; and when the wait has passed something is due, so
that the loop neither misses anything nor turns for nothing.
-/

namespace RoomServer

namespace LoadGen

/-- The times at which a turn has something to do for a client. -/
def clientTimes (gen : LoadGen) (client : Client) : List Time :=
  if client.state = .connecting ∨ client.state = .joining then
    [client.stateDeadline]
  else if client.state ≠ .active then
    []
  else
    (if gen.state = .rampUp ∨ gen.state = .warmUp ∨ gen.state = .measure then
      [client.nextHeartbeatTime]
    else
      [])
    ++ (if gen.state = .warmUp ∨ gen.state = .measure then [client.nextMoveTime] else [])
    ++ client.pendingHeartbeats.values.map fun heartbeat =>
      heartbeat.sentTime + milliseconds gen.config.heartbeatIntervalMs

/-- The times at which a turn has something to do. -/
def dueTimes (gen : LoadGen) : List Time :=
  (if gen.state = .rampUp ∧ gen.nextClientIndex < gen.config.clientCount then
    [gen.nextConnectTime]
  else
    [])
  ++ (if gen.state = .warmUp ∨ gen.state = .measure ∨ gen.state = .drain then
    [gen.phaseDeadline]
  else
    [])
  ++ gen.clients.values.flatMap gen.clientTimes

def useEarlierTime (nextTime value : Time) : Time :=
  if value < nextTime then value else nextTime

/-- The first of the due times, or the last time that the clock can hold. -/
def nextTime (gen : LoadGen) : Time := gen.dueTimes.foldl useEarlierTime Int64.maxValue

/-- A duration in milliseconds, rounded up. -/
def ceilMilliseconds (duration : Time) : Int64 :=
  if duration / 1000000 * 1000000 < duration then
    duration / 1000000 + 1
  else
    duration / 1000000

/-- How many milliseconds the next poll may wait. -/
def calculateWaitTimeoutMs (gen : LoadGen) (now : Time) : Int32 :=
  if gen.nextTime = Int64.maxValue then
    1000
  else if gen.nextTime ≤ now then
    0
  else
    let timeout := ceilMilliseconds (gen.nextTime - now)
    if timeout > Int32.maxValue.toInt64 then Int32.maxValue else timeout.toInt32

/-- The part of a turn between the phases and the poll. -/
def driveTurn (gen : LoadGen) (turn : Turn) : Option LoadGen :=
  if gen.state = .finished ∨ gen.state = .failed then
    some gen
  else
    let gen := gen.checkClientDeadlines turn.now
    if gen.state = .failed then
      some gen
    else if gen.state = .rampUp ∨ gen.state = .warmUp ∨ gen.state = .measure then
      driveActiveClients turn.now turn.sends gen.clients.keys gen
    else
      some gen

/-- The rest of a turn, from the poll on. -/
def pollTurn (gen : LoadGen) (turn : Turn) : LoadGen :=
  if gen.state = .finished ∨ gen.state = .failed then
    gen
  else
    match gen.pollOnce turn.poll with
    | (true, gen) => gen
    | (false, gen) => gen.fail

variable {gen gen' : LoadGen}

/-- The earlier of two times is one of them and not later than the other. -/
theorem useEarlierTime_le (time value : Time) :
  useEarlierTime time value ≤ time ∧ useEarlierTime time value ≤ value
    ∧ (useEarlierTime time value = value ∨ useEarlierTime time value = time)
  := by
  rw [useEarlierTime]
  split
  next hlt => exact ⟨Int64.le_of_lt hlt, Int64.le_rfl, .inl rfl⟩
  next hnot => exact ⟨Int64.le_rfl, Int64.not_lt.mp hnot, .inr rfl⟩

/-- The earliest of a list of times and another one. -/
theorem foldl_useEarlierTime (times : List Time) (time : Time) :
  times.foldl useEarlierTime time ≤ time ∧ (∀ t ∈ times, times.foldl useEarlierTime time ≤ t)
    ∧ (times.foldl useEarlierTime time ∈ times ∨ times.foldl useEarlierTime time = time)
  := by
  induction times generalizing time with
  | nil => exact ⟨Int64.le_rfl, by simp, .inr rfl⟩
  | cons value times ih =>
    obtain ⟨htime, hvalue, hfrom⟩ := useEarlierTime_le time value
    obtain ⟨hle, hall, hmem⟩ := ih (useEarlierTime time value)
    rw [List.foldl_cons]
    refine ⟨Int64.le_trans hle htime, ?_, ?_⟩
    · intro t ht
      obtain rfl | ht := List.mem_cons.mp ht
      · exact Int64.le_trans hle hvalue
      · apply hall t ht
    · rw [List.mem_cons]
      obtain hmem | heq := hmem
      · exact .inl (.inr hmem)
      · rw [heq]
        exact hfrom.imp_left .inl

/-- The next time is the first of the due times, if there is one before the last time that the
clock can hold. -/
theorem nextTime_cases (gen : LoadGen) :
  (gen.nextTime = Int64.maxValue ∧ ∀ t ∈ gen.dueTimes, t = Int64.maxValue)
    ∨ gen.nextTime ≠ Int64.maxValue ∧ gen.nextTime ∈ gen.dueTimes
      ∧ ∀ t ∈ gen.dueTimes, gen.nextTime ≤ t
  := by
  obtain ⟨-, hall, hmem⟩ := foldl_useEarlierTime gen.dueTimes Int64.maxValue
  by_cases hlast : gen.nextTime = Int64.maxValue
  · left
    use hlast
    intro t ht
    have hle : gen.nextTime ≤ t := hall t ht
    rw [hlast] at hle
    exact Int64.le_antisymm (Int64.le_maxValue t) hle
  · right
    exact ⟨hlast, hmem.resolve_right hlast, hall⟩

/-- Rounding up gives the least number of milliseconds that cover a duration. -/
theorem ceilMilliseconds_covers {duration : Time} (hpos : 0 < duration) :
  duration.toInt ≤ (ceilMilliseconds duration).toInt * 1000000
    ∧ (ceilMilliseconds duration).toInt * 1000000 < duration.toInt + 1000000
  := by
  have hduration : 0 < duration.toInt := Int64.lt_iff_toInt_lt.mp hpos
  have hlast := Int64.toInt_lt duration
  have hquotient : (duration / 1000000).toInt = duration.toInt / 1000000 := by
    rw [Int64.toInt_div_of_ne_right _ _ (by decide)]
    apply Int.tdiv_eq_ediv_of_nonneg hduration.le
  have hproduct : (duration / 1000000 * 1000000).toInt = duration.toInt / 1000000 * 1000000 := by
    have hmillion : (1000000 : Int64).toInt = 1000000 := by decide
    rw [Int64.toInt_mul, hquotient, hmillion, Int.bmod_eq_of_le_mul_two]
    · omega
    · omega
  have hnext : (duration / 1000000 + 1).toInt = duration.toInt / 1000000 + 1 := by
    rw [Int64.toInt_add, hquotient, Int64.toInt_one, Int.bmod_eq_of_le_mul_two]
    · omega
    · omega
  rw [ceilMilliseconds]
  split
  next hmore =>
    rw [Int64.lt_iff_toInt_lt, hproduct] at hmore
    rw [hnext]
    omega
  next hexact =>
    rw [Int64.lt_iff_toInt_lt, hproduct] at hexact
    rw [hquotient]
    omega

/-- The wait covers the time up to the next due time, with less than a millisecond over, unless it
is cut to the longest that there is. -/
theorem wait_covers {now : Time} (hnow : 0 ≤ now) (hlast : gen.nextTime ≠ Int64.maxValue)
    (hlater : now < gen.nextTime) :
  let wait := (gen.calculateWaitTimeoutMs now).toInt
  now.toInt + wait * 1000000 < gen.nextTime.toInt + 1000000
    ∧ (gen.calculateWaitTimeoutMs now = Int32.maxValue
      ∨ gen.nextTime.toInt ≤ now.toInt + wait * 1000000)
  := by
  have hdifference := Int64.toInt_sub_of_le gen.nextTime now hnow (Int64.le_of_lt hlater)
  have hpos : 0 < gen.nextTime - now := by
    rw [Int64.lt_iff_toInt_lt, hdifference]
    have := Int64.lt_iff_toInt_lt.mp hlater
    have hzero : (0 : Int64).toInt = 0 := by decide
    omega
  obtain ⟨hcovers, hleast⟩ := ceilMilliseconds_covers hpos
  rw [hdifference] at hcovers hleast
  have hmax : Int32.maxValue.toInt64.toInt = 2147483647 := by decide
  rw [calculateWaitTimeoutMs, if_neg hlast, if_neg (Int64.not_le.mpr hlater)]
  dsimp only
  split
  next hlong =>
    have hlong := Int64.lt_iff_toInt_lt.mp hlong
    rw [hmax] at hlong
    rw [Int32.toInt_maxValue]
    constructor
    · omega
    · exact .inl rfl
  next hshort =>
    have hshort := Int64.le_iff_toInt_le.mp (Int64.not_lt.mp hshort)
    rw [hmax] at hshort
    have hwait : (ceilMilliseconds (gen.nextTime - now)).toInt32.toInt
        = (ceilMilliseconds (gen.nextTime - now)).toInt := by
      rw [Int64.toInt_toInt32, Int.bmod_eq_of_le_mul_two]
      · have hpos := Int64.lt_iff_toInt_lt.mp hlater
        omega
      · omega
    rw [hwait]
    omega

/-! ### Quiet turns -/

/-- Nothing is due yet. -/
def Early (gen : LoadGen) (t : Time) : Prop := ∀ time ∈ gen.dueTimes, t < time

/-- A turn in which the sockets take nothing and there are no events. -/
structure Turn.Quiet (turn : Turn) : Prop where
  sends : ∀ fd, turn.sends fd = []
  poll : turn.poll = .events []

/-- What is due for a client is due for the load generator. -/
theorem mem_dueTimes_of_client {fd : Fd} {client : Client}
    (hlookup : gen.clients.lookup fd = some client) {time : Time}
    (htime : time ∈ gen.clientTimes client) :
  time ∈ gen.dueTimes
  := by
  rw [dueTimes, List.mem_append, List.mem_flatMap]
  right
  exact ⟨client, AList.mem_values.mpr ⟨fd, hlookup⟩, htime⟩

/-- Driving a client before anything is due sends nothing. -/
theorem driveClient_early {t : Time} (h : gen.Early t)
    (hstate : gen.state = .rampUp ∨ gen.state = .warmUp ∨ gen.state = .measure) (fd : Fd) :
  gen.driveClient fd t [] = some (true, gen)
  := by
  rw [driveClient]
  cases hlookup : gen.clients.lookup fd with
  | none => rfl
  | some client =>
    dsimp only
    split
    · rfl
    · next hactive =>
      rw [not_not] at hactive
      have htimes : ∀ time ∈ gen.clientTimes client, t < time := by
        intro time htime
        apply h time (mem_dueTimes_of_client hlookup htime)
      rw [clientTimes, hactive] at htimes
      have hheartbeat : gen.driveHeartbeat client t = some (true, gen, client) := by
        rw [driveHeartbeat, if_neg]
        apply Int64.not_le.mpr (htimes client.nextHeartbeatTime (by simp [hstate]))
      have hmove : gen.driveMove client t = some (true, gen, client) := by
        rw [driveMove, if_neg]
        rintro ⟨hmoves, hdue⟩
        apply Int64.not_le.mpr (htimes client.nextMoveTime (by simp [hmoves])) hdue
      have hwrite : driveWrite client [] = (true, client) := by
        rw [driveWrite]
        split <;> rfl
      have hput : gen.put fd client = gen := by
        rw [put, AList.assign_lookup hlookup]
      rw [hheartbeat]
      dsimp only
      rw [hmove]
      dsimp only
      rw [hwrite]
      dsimp only
      rw [hput]

/-- Before anything is due, and with sockets that take nothing, no client changes. -/
theorem driveActiveClients_early {t : Time} (h : gen.Early t)
    (hstate : gen.state = .rampUp ∨ gen.state = .warmUp ∨ gen.state = .measure)
    {sends : Fd → List Connection.WriteOutcome} (hsends : ∀ fd, sends fd = []) (fds : List Fd) :
  driveActiveClients t sends fds gen = some gen
  := by
  induction fds with
  | nil => rfl
  | cons fd fds ih =>
    rw [driveActiveClients, hsends, driveClient_early h hstate]
    exact ih

/-- Before anything is due, no deadline of a client has passed. -/
theorem missedDeadline_early {t : Time} (h : gen.Early t) {fd : Fd} {client : Client}
    (hlookup : gen.clients.lookup fd = some client) :
  missedDeadline gen.config t client = none
  := by
  have htimes : ∀ time ∈ gen.clientTimes client, t < time := by
    intro time htime
    apply h time (mem_dueTimes_of_client hlookup htime)
  rw [clientTimes] at htimes
  rw [missedDeadline]
  split
  · next hmissed =>
    exact absurd hmissed.2 (Int64.not_le.mpr (htimes client.stateDeadline (by simp [hmissed.1])))
  split
  · next hmissed =>
    exact absurd hmissed.2 (Int64.not_le.mpr (htimes client.stateDeadline (by simp [hmissed.1])))
  split
  · rfl
  · next hactive =>
    rw [not_not] at hactive
    split
    · next hmissed =>
      obtain ⟨heartbeat, hmem, hdue⟩ := List.any_eq_true.mp hmissed
      have hlater := htimes (heartbeat.sentTime + milliseconds gen.config.heartbeatIntervalMs) (by
        rw [hactive]
        simp only [reduceCtorEq, or_self, if_false, ne_eq, not_true_eq_false]
        apply List.mem_append_right
        apply List.mem_map.mpr ⟨heartbeat, hmem, rfl⟩)
      exact absurd (of_decide_eq_true hdue) (Int64.not_le.mpr hlater)
    · rfl

/-- Before anything is due, no client fails the run. -/
theorem checkClientDeadlines_early {t : Time} (h : gen.Early t) :
  gen.checkClientDeadlines t = gen
  := by
  rw [checkClientDeadlines]
  have hnone : (gen.clients.entries.findSome? fun e =>
      (missedDeadline gen.config t e.2).map fun failure => (e.1, failure)) = none := by
    rw [List.findSome?_eq_none_iff]
    intro e he
    have hlookup : gen.clients.lookup e.1 = some e.2 := AList.mem_lookup_iff.mpr he
    rw [missedDeadline_early h hlookup, Option.map_none]
  rw [hnone]

/-! ### Clients that are driven -/

/-- What driving the clients leaves as it is. -/
structure Drives (gen gen' : LoadGen) : Prop where
  state : gen'.state = gen.state
  config : gen'.config = gen.config
  index : gen'.nextClientIndex = gen.nextClientIndex
  clients : ∀ fd, (gen'.clients.lookup fd).map Client.state
    = (gen.clients.lookup fd).map Client.state

theorem Drives.refl (gen : LoadGen) : gen.Drives gen := ⟨rfl, rfl, rfl, fun _ => rfl⟩

theorem Drives.trans {gen'' : LoadGen} (h : gen.Drives gen') (h' : gen'.Drives gen'') :
  gen.Drives gen''
  := ⟨h'.state.trans h.state, h'.config.trans h.config, h'.index.trans h.index,
    fun fd => (h'.clients fd).trans (h.clients fd)⟩

/-- A client is written back in the state in which it was. -/
theorem Drives.put {fd : Fd} {client client' : Client}
    (hlookup : gen.clients.lookup fd = some client)
    (hstate : gen'.state = gen.state) (hconfig : gen'.config = gen.config)
    (hindex : gen'.nextClientIndex = gen.nextClientIndex) (hclients : gen'.clients = gen.clients)
    (hclient : client'.state = client.state) :
  gen.Drives (gen'.put fd client')
  where
  state := hstate
  config := hconfig
  index := hindex
  clients := by
    intro fd'
    have hmem : fd ∈ gen.clients := AList.mem_iff_lookup.mpr ⟨client, hlookup⟩
    rw [LoadGen.put, hclients]
    dsimp only
    rw [AList.lookup_assign_of_mem hmem]
    split
    · next heq => rw [heq, hlookup, Option.map_some, Option.map_some, hclient]
    · rfl

/-- A heartbeat changes no state and none of the clients that are not driven. -/
theorem driveHeartbeat_same {client client' : Client} {now : Time}
    (h : gen.driveHeartbeat client now = some (true, gen', client')) :
  gen'.state = gen.state ∧ gen'.config = gen.config ∧ gen'.nextClientIndex = gen.nextClientIndex
    ∧ gen'.clients = gen.clients ∧ client'.state = client.state
  := by
  rw [driveHeartbeat] at h
  split at h
  · split at h
    · cases h
    next gen₁ client₁ hqueue =>
    obtain ⟨⟨due, next⟩, -, heq⟩ := Option.map_eq_some_iff.mp h
    simp only [Prod.mk.injEq, true_and] at heq
    obtain ⟨rfl, rfl⟩ := heq
    rw [queueHeartbeat] at hqueue
    split at hqueue
    · cases hqueue
    dsimp only at hqueue
    split at hqueue
    · cases hqueue
    split at hqueue
    · cases hqueue
    next queued hframe =>
    obtain ⟨-, hstate⟩ := queueFrame_same hframe
    split at hqueue <;>
      · cases hqueue
        exact ⟨rfl, rfl, rfl, rfl, hstate⟩
  · cases h
    exact ⟨rfl, rfl, rfl, rfl, rfl⟩

/-- A move changes no state and none of the clients that are not driven. -/
theorem driveMove_same {client client' : Client} {now : Time}
    (h : gen.driveMove client now = some (true, gen', client')) :
  gen'.state = gen.state ∧ gen'.config = gen.config ∧ gen'.nextClientIndex = gen.nextClientIndex
    ∧ gen'.clients = gen.clients ∧ client'.state = client.state
  := by
  rw [driveMove] at h
  split at h
  · obtain ⟨⟨due, next⟩, -, heq⟩ := Option.map_eq_some_iff.mp h
    dsimp only at heq
    rw [queueMove] at heq
    split at heq
    · cases heq
    next queued hqueue =>
    obtain ⟨-, hstate⟩ := queueFrame_same hqueue
    by_cases hmeasure : gen.state = .measure
    · rw [if_pos hmeasure, recordSchedulerLag, if_pos hmeasure] at heq
      cases heq
      exact ⟨rfl, rfl, rfl, rfl, hstate⟩
    · rw [if_neg hmeasure, if_neg hmeasure] at heq
      cases heq
      exact ⟨rfl, rfl, rfl, rfl, hstate⟩
  · cases h
    exact ⟨rfl, rfl, rfl, rfl, rfl⟩

/-- A client that is driven to its end stays in its state; where it is not, the run has failed. -/
theorem driveClient_drives {fd : Fd} {now : Time} {outcomes : List Connection.WriteOutcome}
    {goOn : Bool} (h : gen.driveClient fd now outcomes = some (goOn, gen')) :
  goOn = false ∧ gen'.state = .failed ∨ goOn = true ∧ gen.Drives gen'
  := by
  rw [driveClient] at h
  split at h
  · cases h
    exact .inr ⟨rfl, .refl _⟩
  next client hlookup =>
  split at h
  · cases h
    exact .inr ⟨rfl, .refl _⟩
  split at h
  · cases h
  · cases h
    exact .inl ⟨rfl, state_failClient _ _ _⟩
  next gen₁ client₁ hheartbeat =>
  split at h
  · cases h
  · cases h
    exact .inl ⟨rfl, state_failClient _ _ _⟩
  next gen₂ client₂ hmove =>
  split at h
  · cases h
    exact .inl ⟨rfl, state_failClient _ _ _⟩
  next client₃ hwrite =>
  cases h
  right
  obtain ⟨hstate₁, hconfig₁, hindex₁, hclients₁, hclient₁⟩ := driveHeartbeat_same hheartbeat
  obtain ⟨hstate₂, hconfig₂, hindex₂, hclients₂, hclient₂⟩ := driveMove_same hmove
  obtain ⟨-, hclient₃⟩ := driveWrite_same hwrite
  exact ⟨rfl, .put hlookup (hstate₂.trans hstate₁) (hconfig₂.trans hconfig₁)
    (hindex₂.trans hindex₁) (hclients₂.trans hclients₁)
    (hclient₃.trans (hclient₂.trans hclient₁))⟩

/-- Driving the clients fails the run or leaves all of them in their states. -/
theorem driveActiveClients_drives {now : Time} {sends : Fd → List Connection.WriteOutcome}
    {fds : List Fd} (h : driveActiveClients now sends fds gen = some gen') :
  gen'.state = .failed ∨ gen.Drives gen'
  := by
  induction fds generalizing gen with
  | nil =>
    cases h
    exact .inr (.refl _)
  | cons fd fds ih =>
    rw [driveActiveClients] at h
    split at h
    · cases h
    · next gen₁ hclient =>
      cases h
      exact (driveClient_drives hclient).imp And.right And.right
    · next gen₁ hclient =>
      obtain ⟨hstop, -⟩ | ⟨-, hdrives⟩ := driveClient_drives hclient
      · cases hstop
      · exact (ih h).imp_right hdrives.trans

/-- Whether all clients are active depends on their number and states only. -/
theorem Drives.allClientsActive (h : gen.Drives gen') :
  gen'.allClientsActive = gen.allClientsActive
  := by
  have hmem : ∀ fd, fd ∈ gen'.clients ↔ fd ∈ gen.clients := by
    intro fd
    rw [← AList.lookup_isSome, ← AList.lookup_isSome, ← Option.isSome_map, h.clients,
      Option.isSome_map]
  have hvalues : ∀ state, (∃ client ∈ gen'.clients.values, client.state = state)
      ↔ ∃ client ∈ gen.clients.values, client.state = state := by
    intro state
    have hfind : ∀ gen : LoadGen, (∃ client ∈ gen.clients.values, client.state = state)
        ↔ ∃ fd, (gen.clients.lookup fd).map Client.state = some state := by
      intro gen
      constructor
      · rintro ⟨client, hclient, hstate⟩
        obtain ⟨fd, hlookup⟩ := AList.mem_values.mp hclient
        use fd
        rw [hlookup, Option.map_some, hstate]
      · rintro ⟨fd, hlookup⟩
        obtain ⟨client, hlookup, hstate⟩ := Option.map_eq_some_iff.mp hlookup
        exact ⟨client, AList.mem_values.mpr ⟨fd, hlookup⟩, hstate⟩
    rw [hfind, hfind]
    simp only [h.clients]
  have hall : (∀ client ∈ gen'.clients.values, client.state = .active)
      ↔ ∀ client ∈ gen.clients.values, client.state = .active := by
    have hnot : ∀ gen : LoadGen, (∀ client ∈ gen.clients.values, client.state = .active)
        ↔ ∀ state, (∃ client ∈ gen.clients.values, client.state = state) → state = .active := by
      intro gen
      constructor
      · rintro hall _ ⟨client, hclient, rfl⟩
        apply hall client hclient
      · intro hall client hclient
        apply hall client.state ⟨client, hclient, rfl⟩
    rw [hnot, hnot]
    simp only [hvalues]
  rw [LoadGen.allClientsActive, LoadGen.allClientsActive, h.index, h.config,
    AList.size_eq_of_mem_iff hmem]
  simp only [hall]

/-- The order in which the clients are visited is none of the data. -/
theorem Reordered.drives (h : gen.Reordered gen') :
  gen.Drives gen'
  := by
  rw [h.rest]
  exact ⟨rfl, rfl, rfl, fun fd => congrArg _ (h.clients fd).symm⟩

/-- Creating clients is no change of phase. -/
theorem startLoop_same {platform : Platform} {now connect : Time}
    {connects : Nat → ConnectOutcome} {turns : Nat}
    (h : startLoop platform now connect connects turns gen = (true, gen')) :
  gen'.state = gen.state ∧ gen'.config = gen.config
  := by
  induction turns generalizing gen with
  | zero =>
    cases h
    exact ⟨rfl, rfl⟩
  | succ turns ih =>
    rw [startLoop] at h
    split at h
    · split at h
      · cases h
      next gen₁ hcreate =>
      have hsame : gen₁.state = gen.state ∧ gen₁.config = gen.config := by
        obtain ⟨-, -, -, -, -, -, rfl⟩ := createClient_started hcreate
        exact ⟨rfl, rfl⟩
      obtain ⟨hstate, hconfig⟩ := ih h
      exact ⟨hstate.trans hsame.1, hconfig.trans hsame.2⟩
    · cases h
      exact ⟨rfl, rfl⟩

/-! ### The state in which a turn waits -/

/-- What the beginning of a turn leaves to its end. -/
structure Ramps (platform : Platform) (gen : LoadGen) : Prop where
  created : gen.state ≠ .created
  ramp : gen.state = .rampUp → 0 < platform.connectInterval gen.config.connectionsPerSecond
    ∧ gen.allClientsActive = false

/-- Driving the clients leaves to the end of a turn what its beginning has left to it. -/
theorem Ramps.drives {platform : Platform} (h : gen.Ramps platform) (hdrives : gen.Drives gen') :
  gen'.Ramps platform
  := by
  constructor
  · rw [hdrives.state]
    exact h.created
  · rw [hdrives.state, hdrives.config, hdrives.allClientsActive]
    exact h.ramp

/-- Behind its beginning a turn that goes on ramps up with a positive interval between connects and
with a client that is not active yet, or has left the ramp behind. -/
theorem ramps_of_beginTurn {platform : Platform} {turn : Turn}
    (hbegin : gen.beginTurn platform turn = some gen') (hfailed : gen'.state ≠ .failed) :
  gen'.Ramps platform
  := by
  have hother : ∀ {gen' : LoadGen}, gen'.state ≠ .created → gen'.state ≠ .rampUp →
      gen'.Ramps platform := by
    intro gen' hcreated hramp
    exact ⟨hcreated, fun hstate => absurd hstate hramp⟩
  have hto : ∀ {gen gen' : LoadGen} {state : States} {now : Time},
      gen.transitionTo state now = some gen' → gen'.state = state := by
    intro gen gen' state now h
    rw [transitionTo.eq_def] at h
    cases state with
    | warmUp =>
      dsimp only at h
      split at h
      · cases h
        rfl
      · cases h
    | _ =>
      cases h
      rfl
  rw [beginTurn] at hbegin
  split at hbegin
  next hstate =>
    split at hbegin
    · cases hbegin
      exact absurd rfl hfailed
    next gen₁ hstart =>
    rw [startDueClients] at hstart
    split at hstart
    · cases hstart
    next hconnect =>
    obtain ⟨hstate₁, hconfig₁⟩ := startLoop_same hstart
    split at hbegin
    · apply hother <;> simp [hto hbegin]
    · next hactive =>
      cases hbegin
      constructor
      · rw [hstate₁, hstate]
        simp
      · intro _
        rw [hconfig₁]
        exact ⟨Int64.not_le.mp hconnect, Bool.not_eq_true _ ▸ hactive⟩
  next hstate =>
    split at hbegin
    · apply hother <;> simp [hto hbegin]
    · cases hbegin
      apply hother <;> simp [hstate]
  next hstate =>
    split at hbegin
    · apply hother <;> simp [hto hbegin]
    · cases hbegin
      apply hother <;> simp [hstate]
  next hstate =>
    split at hbegin
    · apply hother <;> simp [hto hbegin]
    · cases hbegin
      apply hother <;> simp [hstate]
  next hstate =>
    cases hbegin
    exact absurd rfl hfailed
  next hstate =>
    cases hbegin
    apply hother <;> simp [hstate]
  next hstate =>
    cases hbegin
    exact absurd hstate hfailed

/-- The part of a turn before the poll fails the run or drives its clients. -/
theorem driveTurn_drives {turn : Turn} (h : gen.driveTurn turn = some gen') :
  gen'.state = .failed ∨ gen.Drives gen'
  := by
  rw [driveTurn] at h
  split at h
  · cases h
    exact .inr (.refl _)
  dsimp only at h
  obtain hsame | hfailed := checkClientDeadlines_cases gen turn.now
  · rw [hsame] at h
    split at h
    next hfailed =>
      cases h
      exact .inl hfailed
    split at h
    · apply driveActiveClients_drives h
    · cases h
      exact .inr (.refl _)
  · rw [if_pos hfailed] at h
    cases h
    exact .inl hfailed

/-- The rest of a turn drives the clients and polls the sockets. -/
theorem finishTurn_eq (gen : LoadGen) (turn : Turn) :
  gen.finishTurn turn = (gen.driveTurn turn).map fun gen => gen.pollTurn turn
  := by
  rw [finishTurn, driveTurn]
  split
  · next hend => rw [Option.map_some, pollTurn, if_pos hend]
  · next hruns =>
    rw [not_or] at hruns
    dsimp only
    split
    · next hfailed => rw [Option.map_some, pollTurn, if_pos (.inr hfailed)]
    · next hgoes =>
      have hsame := (checkClientDeadlines_cases gen turn.now).resolve_right hgoes
      rw [hsame]
      split
      · cases hdrive : driveActiveClients turn.now turn.sends gen.clients.keys gen with
        | none => rfl
        | some driven =>
          have hfinished : driven.state ≠ .finished := by
            obtain hfailed | hdrives := driveActiveClients_drives hdrive
            · rw [hfailed]
              simp
            · rw [hdrives.state]
              exact hruns.1
          rw [Option.map_some, Option.map_some, pollTurn]
          exact congrArg some (if_congr (or_iff_right hfinished).symm rfl rfl)
      · rw [Option.map_some, Option.map_some, pollTurn]
        exact congrArg some (if_congr (or_iff_right hruns.1).symm rfl rfl)

/-- A turn before anything is due, with no events, leaves the load generator as it is. -/
theorem quiet_of_early {platform : Platform} (h : gen.Ramps platform) {turn : Turn}
    (hquiet : turn.Quiet) (hearly : gen.Early turn.now) :
  gen.beginTurn platform turn = some gen ∧ gen.finishTurn turn = some gen
  := by
  have hphase : gen.state = .warmUp ∨ gen.state = .measure ∨ gen.state = .drain →
      turn.now < gen.phaseDeadline := by
    intro hstate
    apply hearly
    simp [dueTimes, hstate]
  constructor
  · rw [beginTurn]
    split
    next hstate =>
      obtain ⟨hconnect, hactive⟩ := h.ramp hstate
      have hstart : gen.startDueClients platform turn.now turn.connects = (true, gen) := by
        rw [startDueClients, if_neg (Int64.not_le.mpr hconnect)]
        cases gen.config.clientCount - gen.nextClientIndex with
        | zero => rfl
        | succ turns =>
          rw [startLoop, if_neg]
          rintro ⟨hmore, hdue⟩
          apply Int64.not_le.mpr (hearly gen.nextConnectTime _) hdue
          simp [dueTimes, hstate, hmore]
      rw [hstart]
      dsimp only
      rw [if_neg (by simp [hactive])]
    next hstate => rw [if_neg (Int64.not_le.mpr (hphase (by simp [hstate])))]
    next hstate => rw [if_neg (Int64.not_le.mpr (hphase (by simp [hstate])))]
    next hstate => rw [if_neg (Int64.not_le.mpr (hphase (by simp [hstate])))]
    next hstate => exact absurd hstate h.created
    · rfl
    · rfl
  · have hdrive : gen.driveTurn turn = some gen := by
      rw [driveTurn, checkClientDeadlines_early hearly]
      split
      · rfl
      dsimp only
      split
      · rfl
      split
      · next hstate => apply driveActiveClients_early hearly hstate hquiet.sends
      · rfl
    rw [finishTurn_eq, hdrive, Option.map_some, pollTurn, hquiet.poll]
    split <;> rfl

/-- What the wait of a turn that reads the clock at `now` is good for. -/
structure Sleeps (platform : Platform) (gen : LoadGen) (now : Time) : Prop where
  /-- A turn that begins before the last millisecond of the wait changes nothing. -/
  quiet : ∀ turn : Turn, turn.Quiet → now ≤ turn.now → turn.now < Int64.maxValue →
    turn.now.toInt + 1000000 ≤ now.toInt + (gen.calculateWaitTimeoutMs now).toInt * 1000000 →
      gen.beginTurn platform turn = some gen ∧ gen.finishTurn turn = some gen
  /-- When the wait has passed something is due, unless nothing is before the last time that the
  clock can hold, or the wait is the longest that there is. -/
  due : (∀ time ∈ gen.dueTimes, time = Int64.maxValue) ∧ gen.calculateWaitTimeoutMs now = 1000
    ∨ gen.calculateWaitTimeoutMs now = Int32.maxValue
    ∨ ∃ time ∈ gen.dueTimes,
      time.toInt ≤ now.toInt + (gen.calculateWaitTimeoutMs now).toInt * 1000000

/-- The wait that is computed ends neither too early nor too late. -/
theorem Ramps.sleeps {platform : Platform} (h : gen.Ramps platform) {now : Time} (hnow : 0 ≤ now) :
  gen.Sleeps platform now
  := by
  have hpast : gen.nextTime ≠ Int64.maxValue → gen.nextTime ≤ now →
      gen.calculateWaitTimeoutMs now = 0 := by
    intro hlast hle
    rw [calculateWaitTimeoutMs, if_neg hlast, if_pos hle]
  constructor
  · intro turn hquiet hfrom hclock hwait
    apply quiet_of_early h hquiet
    intro time htime
    obtain ⟨-, hall⟩ | ⟨hlast, -, hfirst⟩ := gen.nextTime_cases
    · rw [hall time htime]
      exact hclock
    · apply Int64.lt_of_lt_of_le _ (hfirst time htime)
      rw [Int64.lt_iff_toInt_lt]
      have hle := Int64.le_iff_toInt_le.mp hfrom
      by_cases hpassed : gen.nextTime ≤ now
      · rw [hpast hlast hpassed, Int32.toInt_zero] at hwait
        omega
      · have := (wait_covers hnow hlast (Int64.not_le.mp hpassed)).1
        omega
  · obtain ⟨hlast, hall⟩ | ⟨hlast, hmem, -⟩ := gen.nextTime_cases
    · left
      use hall
      rw [calculateWaitTimeoutMs, if_pos hlast]
    · right
      by_cases hpassed : gen.nextTime ≤ now
      · right
        use gen.nextTime, hmem
        rw [hpast hlast hpassed, Int32.toInt_zero]
        have := Int64.le_iff_toInt_le.mp hpassed
        omega
      · obtain ⟨-, hcovers⟩ := wait_covers hnow hlast (Int64.not_le.mp hpassed)
        exact hcovers.imp_right fun hcovered => ⟨gen.nextTime, hmem, hcovered⟩

/-- The state in which a turn polls the sockets. -/
def Waits (platform : Platform) (gen : LoadGen) (turn : Turn) (waiting : LoadGen) : Prop :=
  ∃ begun reordered, gen.beginTurn platform turn = some begun ∧ begun.Reordered reordered
    ∧ reordered.driveTurn turn = some waiting

/-- Each turn of a run that has not failed waits until something is due, and not longer than by
the rounding to milliseconds. -/
theorem sleeps_of_turns {platform : Platform} {s s' : LoadGen × Time} {turn : Turn}
    (h : Turns platform s turn s') :
  ∃ waiting, s.1.Waits platform turn waiting ∧ s'.1 = waiting.pollTurn turn
    ∧ (waiting.state ≠ .failed → ∀ now, 0 ≤ now → waiting.Sleeps platform now)
  := by
  obtain ⟨begun, reordered, hbegin, hreordered, hfinish⟩ := h.turn
  rw [finishTurn_eq] at hfinish
  obtain ⟨waiting, hdrive, hpoll⟩ := Option.map_eq_some_iff.mp hfinish
  refine ⟨waiting, ⟨begun, reordered, hbegin, hreordered, hdrive⟩, hpoll.symm, ?_⟩
  intro hgoes now hnow
  have hdrives := hreordered.drives.trans ((driveTurn_drives hdrive).resolve_left hgoes)
  have hramps : begun.Ramps platform := by
    apply ramps_of_beginTurn hbegin
    rw [← hdrives.state]
    exact hgoes
  apply (hramps.drives hdrives).sleeps hnow

/-- The first turn of a run with one client. -/
theorem sleeps_first :
  ∃ s', Turns localPlatform (startOf (oneClient 50)) (turnAt 0 []) s'
    ∧ ∃ waiting, (startOf (oneClient 50)).1.Waits localPlatform (turnAt 0 []) waiting
      ∧ s'.1 = waiting.pollTurn (turnAt 0 [])
      ∧ (waiting.state ≠ .failed → ∀ now, 0 ≤ now → waiting.Sleeps localPlatform now)
  := by
  have hrun : (((startOf (oneClient 50)).1.beginTurn localPlatform (turnAt 0 [])).bind fun begun =>
      begun.finishTurn (turnAt 0 [])).isSome = true := by decide +kernel
  obtain ⟨gen, hgen⟩ := Option.isSome_iff_exists.mp hrun
  obtain ⟨begun, hbegin, hfinish⟩ := Option.bind_eq_some_iff.mp hgen
  have hturns : Turns localPlatform (startOf (oneClient 50)) (turnAt 0 []) (gen, 0) :=
    ⟨⟨nofun, nofun⟩, by simp [Turn.readings, turnAt, startOf], rfl, begun, begun, hbegin,
      .refl begun, hfinish⟩
  exact ⟨(gen, 0), hturns, sleeps_of_turns hturns⟩

end LoadGen

end RoomServer
