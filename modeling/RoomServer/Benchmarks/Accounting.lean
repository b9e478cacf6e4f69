import RoomServer.Benchmarks.RunLoop

/-!
# The accounting of the load generator

`Sound` says that the counters agree: the moves that were planned were sent or missed, and the
heartbeats sent while measuring were acknowledged or are pending.  A step on one client keeps
these balances, `Keeps`, and does not touch times and phases.  What makes the comparison of
times with phases right is `Timed`: as the warm up and the measuring last some time, nothing
is sent while warming up at the time at which the measuring starts, and nothing is sent while
measuring at the time at which it ends.
-/

namespace RoomServer

namespace LoadGen

/-- `active_client_count`. -/
def activeClientCount (gen : LoadGen) : Nat :=
  gen.clients.values.countP fun client => client.state = .active

/-- The number of pending heartbeats of a client that were sent while measuring. -/
def measuredPending (gen : LoadGen) (client : Client) : Nat :=
  client.pendingHeartbeats.values.countP fun heartbeat => gen.measured heartbeat.sentTime

/-- The number of pending heartbeats that were sent while measuring. -/
def pendingMeasured (gen : LoadGen) : Nat := (gen.clients.values.map gen.measuredPending).sum

/-- The counters agree with each other and with the clients. -/
structure Sound (gen : LoadGen) : Prop where
  moves : gen.result.plannedMoveFrames
    = gen.result.sentMoveFrames + gen.result.missedMoveDeadlines
  heartbeats : gen.result.heartbeatFrames = gen.result.heartbeatAcks + gen.pendingMeasured
  acks : gen.counted.length = gen.result.heartbeatAcks ∧ ∀ phase ∈ gen.counted, phase = .measure
  joins : gen.result.joinSuccesses = gen.activeClientCount
  verdict : gen.state = .finished →
    (∀ client ∈ gen.clients.values, client.pendingHeartbeats.size = 0) →
    gen.result.heartbeatFrames = gen.result.heartbeatAcks ∧ gen.moveAccountingValid = true

/-! ### Steps on one client -/

/-- What is known of a pending heartbeat: its time tells whether it was sent while measuring, it
was sent by now, and before the end of the phase. -/
structure HeartbeatOk (gen : LoadGen) (now : Time) (heartbeat : Heartbeat) : Prop where
  phase : heartbeat.phase = .measure ↔ gen.measured heartbeat.sentTime = true
  sent : gen.state = .rampUp → heartbeat.sentTime ≤ now
  before : gen.state = .warmUp ∨ gen.state = .measure → heartbeat.sentTime < gen.phaseDeadline

def ClientOk (gen : LoadGen) (now : Time) (client : Client) : Prop :=
  ∀ heartbeat ∈ client.pendingHeartbeats.values, gen.HeartbeatOk now heartbeat

/-- Whether a client counts as active. -/
def activity (client : Client) : Nat := if client.state = .active then 1 else 0

/-- A step on a client keeps the balances, adds only acknowledgements of heartbeats sent while
measuring, and leaves everything else alone. -/
structure Keeps (now : Time) (gen : LoadGen) (client : Client) (gen' : LoadGen)
    (client' : Client) : Prop where
  rest : gen' = { gen with
    result := gen'.result
    heartbeatRttUs := gen'.heartbeatRttUs
    snapshotIntervalUs := gen'.snapshotIntervalUs
    schedulerLagUs := gen'.schedulerLagUs
    counted := gen'.counted }
  moves : gen'.result.plannedMoveFrames
      + (gen.result.sentMoveFrames + gen.result.missedMoveDeadlines)
    = gen.result.plannedMoveFrames
      + (gen'.result.sentMoveFrames + gen'.result.missedMoveDeadlines)
  heartbeats : gen'.result.heartbeatFrames
      + (gen.result.heartbeatAcks + gen.measuredPending client)
    = gen.result.heartbeatFrames + (gen'.result.heartbeatAcks + gen.measuredPending client')
  joins : gen'.result.joinSuccesses + activity client
    = gen.result.joinSuccesses + activity client'
  counted : gen.ClientOk now client → ∃ more : List States,
    gen'.counted = gen.counted ++ more
      ∧ gen'.result.heartbeatAcks = gen.result.heartbeatAcks + more.length
      ∧ gen'.heartbeatRttUs.length = gen.heartbeatRttUs.length + more.length
      ∧ ∀ phase ∈ more, phase = .measure
  sent : gen.ClientOk now client → gen.ClientOk now client'

variable {now : Time} {gen gen' gen'' : LoadGen} {client client' client'' : Client}

/-- What is asked of a client depends on the phase and its times only. -/
theorem clientOk_congr (hmeasured : gen'.measured = gen.measured) (hstate : gen'.state = gen.state)
    (hdeadline : gen'.phaseDeadline = gen.phaseDeadline) :
  gen'.ClientOk now client ↔ gen.ClientOk now client
  := by
  have hheartbeat : ∀ heartbeat,
      gen'.HeartbeatOk now heartbeat ↔ gen.HeartbeatOk now heartbeat := by
    intro heartbeat
    constructor
    · rintro ⟨hphase, hsent, hbefore⟩
      rw [hmeasured] at hphase
      rw [hstate] at hsent
      rw [hstate, hdeadline] at hbefore
      exact ⟨hphase, hsent, hbefore⟩
    · rintro ⟨hphase, hsent, hbefore⟩
      rw [← hmeasured] at hphase
      rw [← hstate] at hsent
      rw [← hstate, ← hdeadline] at hbefore
      exact ⟨hphase, hsent, hbefore⟩
  simp only [ClientOk, hheartbeat]

/-- A change of a client that the accounting does not look at. -/
theorem Keeps.of_same (hpending : client'.pendingHeartbeats = client.pendingHeartbeats)
    (hactive : activity client' = activity client) :
  Keeps now gen client gen client'
  := by
  constructor
  case rest => rfl
  case moves => rfl
  case heartbeats => rw [measuredPending, measuredPending, hpending]
  case joins => rw [hactive]
  case counted => exact fun _ => ⟨[], by simp⟩
  case sent =>
    intro hok
    rw [ClientOk, hpending]
    exact hok

/-- No step on a client moves the times between which heartbeats are measured. -/
theorem Keeps.measured_eq (h : Keeps now gen client gen' client') :
  gen'.measured = gen.measured
  := by
  rw [h.rest]
  rfl

/-- So the same heartbeats count as sent while measuring behind it. -/
theorem Keeps.measuredPending_eq (h : Keeps now gen client gen' client') :
  gen'.measuredPending = gen.measuredPending
  := by
  funext client
  rw [measuredPending, measuredPending, h.measured_eq]

/-- No step on a client changes the phase. -/
theorem Keeps.state_eq (h : Keeps now gen client gen' client') :
  gen'.state = gen.state
  := by
  rw [h.rest]

/-- The client is written back by the caller. -/
theorem Keeps.clients_eq (h : Keeps now gen client gen' client') :
  gen'.clients = gen.clients
  := by
  rw [h.rest]

/-- The other clients are in order as before. -/
theorem Keeps.clientOk_iff (h : Keeps now gen client gen' client') {other : Client} :
  gen'.ClientOk now other ↔ gen.ClientOk now other
  := by
  apply clientOk_congr
  · apply h.measured_eq
  · apply h.state_eq
  · rw [h.rest]

/-- The acknowledgements of two steps add up. -/
theorem Keeps.trans (h : Keeps now gen client gen' client')
    (h' : Keeps now gen' client' gen'' client'') :
  Keeps now gen client gen'' client''
  := by
  have hheartbeats := h'.heartbeats
  rw [h.measuredPending_eq] at hheartbeats
  constructor
  case rest => rw [h'.rest, h.rest]
  case moves =>
    have := h.moves
    have := h'.moves
    omega
  case heartbeats =>
    have := h.heartbeats
    omega
  case joins =>
    have := h.joins
    have := h'.joins
    omega
  case counted =>
    intro hok
    obtain ⟨more, hcounted, hacks, hrtts, hphases⟩ := h.counted hok
    obtain ⟨more', hcounted', hacks', hrtts', hphases'⟩ :=
      h'.counted (h.clientOk_iff.mpr (h.sent hok))
    use more ++ more'
    rw [hcounted', hcounted, hacks', hacks, hrtts', hrtts, List.length_append, List.append_assoc,
      Nat.add_assoc, Nat.add_assoc]
    refine ⟨rfl, rfl, rfl, ?_⟩
    intro phase hphase
    rcases List.mem_append.mp hphase with hmem | hmem
    · apply hphases phase hmem
    · apply hphases' phase hmem
  case sent =>
    exact fun hok => h.clientOk_iff.mp (h'.sent (h.clientOk_iff.mpr (h.sent hok)))

/-- A change of counters that the accounting does not look at. -/
theorem Keeps.of_counters {gen' : LoadGen} (hrest : gen' = { gen with
      result := gen'.result
      snapshotIntervalUs := gen'.snapshotIntervalUs
      schedulerLagUs := gen'.schedulerLagUs })
    (hmoves : gen'.result.plannedMoveFrames
        + (gen.result.sentMoveFrames + gen.result.missedMoveDeadlines)
      = gen.result.plannedMoveFrames
        + (gen'.result.sentMoveFrames + gen'.result.missedMoveDeadlines))
    (hframes : gen'.result.heartbeatFrames = gen.result.heartbeatFrames)
    (hacks : gen'.result.heartbeatAcks = gen.result.heartbeatAcks)
    (hjoins : gen'.result.joinSuccesses + activity client
      = gen.result.joinSuccesses + activity client')
    (hpending : client'.pendingHeartbeats = client.pendingHeartbeats) :
  Keeps now gen client gen' client'
  := by
  have hcounted : gen'.counted = gen.counted := by rw [hrest]
  have hrtts : gen'.heartbeatRttUs = gen.heartbeatRttUs := by rw [hrest]
  constructor
  case rest =>
    rw [hcounted, hrtts]
    exact hrest
  case moves => exact hmoves
  case heartbeats => rw [hframes, hacks, measuredPending, measuredPending, hpending]
  case joins => exact hjoins
  case counted =>
    intro hok
    use []
    simp [hcounted, hacks, hrtts]
  case sent =>
    intro hok
    rw [ClientOk, hpending]
    exact hok

/-! ### Frames -/

/-- Counting a snapshot leaves the other counters alone. -/
theorem countSnapshot_eq (gen : LoadGen) (client : Client) (tickId : UInt64) (at_ : Time) :
  ∃ frames gaps intervals, gen.countSnapshot client tickId at_ = { gen with
    result := { gen.result with snapshotFrames := frames, tickGaps := gaps }
    snapshotIntervalUs := intervals }
  := by
  rw [countSnapshot]
  split
  · split
    · exact ⟨_, _, _, rfl⟩
    · exact ⟨_, _, _, rfl⟩
  · exact ⟨_, _, _, rfl⟩

/-- A snapshot is none of the frames that are balanced. -/
theorem recordSnapshot_keeps {tickId : UInt64} {at_ : Time}
    (h : gen.recordSnapshot client tickId at_ = (true, gen', client')) :
  Keeps now gen client gen' client'
  := by
  rw [recordSnapshot] at h
  split at h
  · cases h
  split at h
  · obtain ⟨frames, gaps, intervals, hcount⟩ := countSnapshot_eq gen client tickId at_
    rw [hcount] at h
    cases h
    apply Keeps.of_counters
    all_goals rfl
  · cases h
    apply Keeps.of_same
    · rfl
    · rfl

/-- An acknowledgement takes its heartbeat out of those that are pending, and counts when the
heartbeat was sent while measuring. -/
theorem recordHeartbeatAck_keeps {seq : UInt64} {at_ : Time}
    (h : gen.recordHeartbeatAck client seq at_ = (true, gen', client')) :
  Keeps now gen client gen' client'
  := by
  rw [recordHeartbeatAck] at h
  split at h
  · cases h
  next heartbeat hlookup =>
  split at h
  · cases h
  obtain ⟨others, hvalues, herase, -⟩ := AList.exists_perm_values hlookup
  have hpending : gen.measuredPending client
      = gen.measuredPending
          { client with pendingHeartbeats := client.pendingHeartbeats.erase seq }
        + if gen.measured heartbeat.sentTime then 1 else 0 := by
    rw [measuredPending, measuredPending, hvalues.countP_eq, List.countP_cons, herase.countP_eq]
  have hmem : heartbeat ∈ client.pendingHeartbeats.values := AList.mem_values.mpr ⟨seq, hlookup⟩
  have hsent : gen.ClientOk now client → gen.ClientOk now
      { client with pendingHeartbeats := client.pendingHeartbeats.erase seq } := by
    intro hok other hother
    apply hok other
    apply hvalues.mem_iff.mpr (List.mem_cons_of_mem _ (herase.mem_iff.mp hother))
  by_cases hmeasured : gen.measured heartbeat.sentTime = true
  · simp only [hmeasured, if_true, Prod.mk.injEq, true_and] at h hpending
    obtain ⟨rfl, rfl⟩ := h
    constructor
    case rest => rfl
    case moves => rfl
    case heartbeats =>
      rw [hpending]
      dsimp only
      omega
    case joins => rfl
    case counted =>
      intro hok
      use [heartbeat.phase], rfl, rfl
      constructor
      · rw [List.length_append]
        rfl
      · intro phase hphase
        rw [List.mem_singleton.mp hphase]
        apply (hok heartbeat hmem).phase.mpr hmeasured
    case sent => exact hsent
  · simp only [hmeasured, Bool.false_eq_true, if_false, Prod.mk.injEq, true_and] at h hpending
    obtain ⟨rfl, rfl⟩ := h
    constructor
    case rest => rfl
    case moves => rfl
    case heartbeats => rw [hpending, Nat.add_zero]
    case joins => rfl
    case counted => exact fun _ => ⟨[], by simp⟩
    case sent => exact hsent

/-- A frame that is accepted is a join, an acknowledgement or a snapshot, or changes nothing. -/
theorem processFrame_keeps {type : UInt16} {payload : Bytes} {at_ : Time}
    (h : gen.processFrame client type payload at_ = (true, gen', client')) :
  Keeps now gen client gen' client'
  := by
  rw [processFrame] at h
  split at h
  · split at h
    · cases h
    next hjoining =>
    split at h
    · cases h
    · simp only [Prod.mk.injEq, true_and] at h
      obtain ⟨rfl, rfl⟩ := h
      apply Keeps.of_counters
      case hrest => rfl
      case hmoves => rfl
      case hframes => rfl
      case hacks => rfl
      case hjoins => simp [activity, not_not.mp hjoining]
      case hpending => rfl
  · split at h
    · cases h
    split at h
    · cases h
    · simp only [Prod.mk.injEq, true_and] at h
      obtain ⟨rfl, rfl⟩ := h
      apply Keeps.of_same rfl rfl
  · split at h
    · cases h
    split at h
    · cases h
    · apply recordSnapshot_keeps h
  · split at h
    · cases h
    split at h
    · cases h
    · apply recordHeartbeatAck_keeps h
  · split at h
    · cases h
    · cases h
  · cases h

/-- Frames that are all accepted, one after the other. -/
theorem offer_keeps {at_ : Time} {frames : List Frame}
    (h : Codec.offer (frameCallback at_) (gen, client) frames = (true, gen', client')) :
  Keeps now gen client gen' client'
  := by
  induction frames generalizing gen client with
  | nil =>
    cases h
    apply Keeps.of_same rfl rfl
  | cons frame frames ih =>
    rw [Codec.offer] at h
    split at h
    · cases h
    next next hnext =>
      obtain ⟨gen₁, client₁⟩ := next
      apply (processFrame_keeps hnext).trans (ih h)

/-! ### The socket -/

/-- Writing changes only the write buffer. -/
theorem writeToClient_same {outcomes : List Connection.WriteOutcome} {success : Bool}
    (h : writeToClient client outcomes = (success, client')) :
  client'.pendingHeartbeats = client.pendingHeartbeats ∧ client'.state = client.state
  := by
  induction outcomes generalizing client with
  | nil =>
    cases h
    exact ⟨rfl, rfl⟩
  | cons outcome outcomes ih =>
    rw [writeToClient.eq_def] at h
    dsimp only at h
    split at h
    · cases h
      exact ⟨rfl, rfl⟩
    · split at h
      · cases h
        exact ⟨rfl, rfl⟩
      · obtain ⟨hpending, hstate⟩ := ih h
        exact ⟨hpending, hstate⟩
      · apply ih h
      · cases h
        exact ⟨rfl, rfl⟩
      · cases h
        exact ⟨rfl, rfl⟩

/-- Receiving changes only the read buffer. -/
theorem receive_same {outcomes : List Connection.ReadOutcome} {peerClosed : Option Bool}
    (h : receive client outcomes = (peerClosed, client')) :
  client'.pendingHeartbeats = client.pendingHeartbeats ∧ client'.state = client.state
  := by
  induction outcomes generalizing client with
  | nil =>
    cases h
    exact ⟨rfl, rfl⟩
  | cons outcome outcomes ih =>
    cases outcome with
    | received data =>
      rw [receive] at h
      split at h
      · cases h
        exact ⟨rfl, rfl⟩
      · obtain ⟨hpending, hstate⟩ := ih h
        exact ⟨hpending, hstate⟩
    | interrupted =>
      rw [receive] at h
      apply ih h
    | wouldBlock =>
      cases h
      exact ⟨rfl, rfl⟩
    | failed =>
      cases h
      exact ⟨rfl, rfl⟩

/-- A change of the buffers of a client. -/
theorem Keeps.of_eq (h : client'.pendingHeartbeats = client.pendingHeartbeats
    ∧ client'.state = client.state) :
  Keeps now gen client gen client'
  := by
  apply Keeps.of_same h.1
  rw [activity, activity, h.2]

/-- What was received is offered to the callback frame by frame. -/
theorem readFromClient_keeps {at_ : Time} {outcomes : List Connection.ReadOutcome}
    (h : gen.readFromClient client at_ outcomes = (true, gen', client')) :
  Keeps now gen client gen' client'
  := by
  rw [readFromClient] at h
  split at h
  · cases h
  next peerClosed received hreceive =>
  split at h
  · dsimp only at h
    split at h
    · cases h
    · cases h
  next gen₁ client₁ readBuffer hdecode =>
  dsimp only at h
  split at h
  · split at h
    · cases h
    · cases h
  · cases h
    obtain ⟨hgood, hstate, -⟩ :=
      Codec.decodeLoop_spec (frameCallback at_) (gen, received) received.readBuffer
    simp only [Codec.decode] at hdecode
    rw [hdecode] at hgood hstate
    have hoffer : Codec.offer (frameCallback at_) (gen, received)
        (Codec.readFrames received.readBuffer.content).frames = (true, gen', client₁) := by
      rw [Prod.ext_iff]
      constructor
      · apply (Bool.and_eq_true_iff.mp hgood.symm).1
      · apply hstate.symm
    apply (Keeps.of_eq (receive_same hreceive)).trans
    apply (offer_keeps hoffer).trans
    apply Keeps.of_eq
    exact ⟨rfl, rfl⟩

/-! ### Connecting -/

/-- A frame is queued in the write buffer. -/
theorem queueFrame_same {type : MessageType} {payload : Bytes} {success : Bool}
    (h : queueFrame client type payload = (success, client')) :
  client'.pendingHeartbeats = client.pendingHeartbeats ∧ client'.state = client.state
  := by
  rw [queueFrame] at h
  split at h
  · cases h
    exact ⟨rfl, rfl⟩
  · cases h
    exact ⟨rfl, rfl⟩

/-- A join is queued in the write buffer. -/
theorem queueJoin_same (client : Client) :
  (queueJoin client).2.pendingHeartbeats = client.pendingHeartbeats
    ∧ (queueJoin client).2.state = client.state
  := by
  rw [queueJoin]
  split
  · exact ⟨rfl, rfl⟩
  · apply queueFrame_same Prod.mk.eta.symm

/-- A client is written to only when something waits in its buffer. -/
theorem driveWrite_same {outcomes : List Connection.WriteOutcome} {success : Bool}
    (h : driveWrite client outcomes = (success, client')) :
  client'.pendingHeartbeats = client.pendingHeartbeats ∧ client'.state = client.state
  := by
  rw [driveWrite] at h
  split at h
  · cases h
    exact ⟨rfl, rfl⟩
  · apply writeToClient_same h

/-- A client that is connected joins, and is not active yet. -/
theorem finishConnect_keeps {at_ : Time} {connected : Bool}
    (h : gen.finishConnect client at_ connected = (true, gen', client')) :
  Keeps now gen client gen' client'
  := by
  rw [finishConnect] at h
  split at h
  · cases h
  next hstate =>
  simp only [Prod.mk.injEq] at h
  obtain ⟨-, rfl, rfl⟩ := h
  have hconnecting : client.state = .connecting := not_not.mp fun hne => hstate (.inl hne)
  apply Keeps.of_counters
  case hrest => rfl
  case hmoves => rfl
  case hframes => rfl
  case hacks => rfl
  case hjoins => simp [activity, (queueJoin_same _).2, hconnecting]
  case hpending => apply (queueJoin_same _).1

/-- The event that ends a connect is none of the frames that are balanced. -/
theorem connectEvent_keeps {event : PollEvent}
    (h : gen.connectEvent client event = (none, gen', client')) :
  Keeps now gen client gen' client'
  := by
  rw [connectEvent] at h
  split at h
  · cases h
    apply Keeps.of_same rfl rfl
  split at h
  · cases h
  next gen₁ client₁ hfinish =>
  split at h
  · cases h
  next client₂ hwrite =>
  cases h
  apply (finishConnect_keeps hfinish).trans (Keeps.of_eq (driveWrite_same hwrite))

/-! ### Sending -/

/-- What is sent now counts as sent while measuring exactly when the phase is that of measuring,
and is sent before the end of the phase. -/
structure Ready (gen : LoadGen) (now : Time) : Prop where
  measured : gen.measured now = true ↔ gen.state = .measure
  before : gen.state = .warmUp ∨ gen.state = .measure → now < gen.phaseDeadline

/-- A step on a client leaves the phase and its deadline to the next client. -/
theorem Ready.of_keeps (h : gen.Ready now) (hkeeps : Keeps now gen client gen' client') :
  gen'.Ready now
  := by
  have hdeadline : gen'.phaseDeadline = gen.phaseDeadline := by rw [hkeeps.rest]
  constructor
  · rw [hkeeps.measured_eq, hkeeps.state_eq]
    apply h.measured
  · rw [hkeeps.state_eq, hdeadline]
    apply h.before

/-- A heartbeat is pending from the moment it counts as sent. -/
theorem queueHeartbeat_keeps (hready : gen.Ready now)
    (h : gen.queueHeartbeat client now = (true, gen', client')) :
  Keeps now gen client gen' client'
  := by
  rw [queueHeartbeat] at h
  split at h
  · cases h
  dsimp only at h
  split at h
  · cases h
  next hfresh =>
  split at h
  · cases h
  next queued hqueue =>
  obtain ⟨hpending, hstate⟩ := queueFrame_same hqueue
  dsimp only at hpending
  have hvalues : queued.pendingHeartbeats.values
      = ⟨now, gen.state⟩ :: client.pendingHeartbeats.values := by
    rw [hpending, AList.values_insert_of_notMem hfresh]
  have hsent : gen.ClientOk now client → ∀ heartbeat ∈ queued.pendingHeartbeats.values,
      gen.HeartbeatOk now heartbeat := by
    intro hok heartbeat hmem
    rw [hvalues] at hmem
    rcases List.mem_cons.mp hmem with rfl | hmem
    · exact ⟨hready.measured.symm, fun _ => Int64.le_rfl, hready.before⟩
    · apply hok heartbeat hmem
  by_cases hmeasure : gen.state = .measure
  · rw [if_pos hmeasure] at h
    cases h
    constructor
    case rest => rfl
    case moves => rfl
    case heartbeats =>
      simp only [measuredPending, hvalues, List.countP_cons, hready.measured.mpr hmeasure, if_true]
      omega
    case joins => simp [activity, hstate]
    case counted => exact fun _ => ⟨[], by simp⟩
    case sent => exact hsent
  · have hnot : gen.measured now = false := by
      rw [← Bool.not_eq_true, hready.measured]
      exact hmeasure
    rw [if_neg hmeasure] at h
    cases h
    constructor
    case rest => rfl
    case moves => rfl
    case heartbeats =>
      simp only [measuredPending, hvalues, List.countP_cons, hnot, Bool.false_eq_true, if_false]
      omega
    case joins => simp [activity, hstate]
    case counted => exact fun _ => ⟨[], by simp⟩
    case sent => exact hsent

/-- A heartbeat is queued when it is due; those that were missed count for nothing. -/
theorem driveHeartbeat_keeps (hready : gen.Ready now)
    (h : gen.driveHeartbeat client now = some (true, gen', client')) :
  Keeps now gen client gen' client'
  := by
  rw [driveHeartbeat] at h
  split at h
  · split at h
    · cases h
    next gen₁ client₁ hqueue =>
    obtain ⟨⟨due, next⟩, -, heq⟩ := Option.map_eq_some_iff.mp h
    simp only [Prod.mk.injEq, true_and] at heq
    obtain ⟨rfl, rfl⟩ := heq
    apply (queueHeartbeat_keeps hready hqueue).trans
    apply Keeps.of_eq
    exact ⟨rfl, rfl⟩
  · cases h
    apply Keeps.of_same rfl rfl

/-- A loop over due times takes at least one turn. -/
theorem dueLoop_pos {interval next next' : Time} {fuel due : Nat}
    (h : dueLoop interval now fuel next = some (due, next')) :
  0 < due
  := by
  cases fuel with
  | zero => cases h
  | succ fuel =>
    rw [dueLoop] at h
    split at h
    · obtain ⟨⟨due', next''⟩, -, heq⟩ := Option.map_eq_some_iff.mp h
      simp only [Prod.mk.injEq] at heq
      omega
    · cases h
      apply Nat.one_pos

/-- A move that is sent is one of the moves that were due; the others were missed. -/
theorem driveMove_keeps (h : gen.driveMove client now = some (true, gen', client')) :
  Keeps now gen client gen' client'
  := by
  rw [driveMove] at h
  split at h
  · obtain ⟨⟨due, next⟩, hdue, heq⟩ := Option.map_eq_some_iff.mp h
    have hpos := dueLoop_pos hdue
    dsimp only at heq
    rw [queueMove] at heq
    split at heq
    · cases heq
    next queued hqueue =>
    obtain ⟨hpending, hstate⟩ := queueFrame_same hqueue
    by_cases hmeasure : gen.state = .measure
    · rw [if_pos hmeasure, recordSchedulerLag, if_pos hmeasure] at heq
      cases heq
      apply Keeps.of_counters
      case hrest => rfl
      case hmoves =>
        dsimp only
        split
        · omega
        · omega
      case hframes => rfl
      case hacks => rfl
      case hjoins => simp [activity, hstate]
      case hpending => exact hpending
    · rw [if_neg hmeasure, if_neg hmeasure] at heq
      cases heq
      apply Keeps.of_eq
      exact ⟨hpending, hstate⟩
  · cases h
    apply Keeps.of_same rfl rfl

/-! ### The invariant -/

/-- The times of the phases, by a reading of the clock. -/
def Timed (gen : LoadGen) (now : Time) : Prop :=
  match gen.state with
  | .created => False
  | .rampUp => gen.measureStartedTime = 0 ∧ gen.measureFinishedTime = 0
  | .warmUp =>
    gen.measureStartedTime = 0 ∧ gen.measureFinishedTime = 0 ∧ 0 < gen.phaseDeadline
  | .measure =>
    0 < gen.measureStartedTime ∧ gen.measureStartedTime ≤ now ∧ gen.measureFinishedTime = 0
  | .drain | .finished | .failed => True

/-- The warm up and the measuring are configured to last some time. -/
structure Lasting (config : Config) : Prop where
  warmUp : config.warmUpMs ≠ 0
  measure : config.measureMs ≠ 0

/-- The counters balance. -/
structure Balanced (gen : LoadGen) : Prop where
  moves : gen.result.plannedMoveFrames
    = gen.result.sentMoveFrames + gen.result.missedMoveDeadlines
  heartbeats : gen.result.heartbeatFrames = gen.result.heartbeatAcks + gen.pendingMeasured
  counted : gen.counted.length = gen.result.heartbeatAcks ∧ ∀ phase ∈ gen.counted, phase = .measure
  rtts : gen.heartbeatRttUs.length = gen.result.heartbeatAcks
  joins : gen.result.joinSuccesses = gen.activeClientCount

/-- The counters balance, and all pending heartbeats are in order. -/
structure Accounted (now : Time) (gen : LoadGen) : Prop extends Balanced gen where
  sent : ∀ client ∈ gen.clients.values, gen.ClientOk now client
  timed : gen.Timed now
  lasting : Lasting gen.config

/-- The clients with one of them taken out. -/
theorem activeClientCount_perm {others : List Client}
    (h : gen.clients.values.Perm (client :: others)) :
  gen.activeClientCount = others.countP (fun client => client.state = .active) + activity client
  := by
  rw [activeClientCount, h.countP_eq, List.countP_cons, activity]
  simp only [decide_eq_true_eq]

/-- The order of the clients does not matter for what they wait for, either. -/
theorem pendingMeasured_perm {others : List Client}
    (h : gen.clients.values.Perm (client :: others)) :
  gen.pendingMeasured = gen.measuredPending client + (others.map gen.measuredPending).sum
  := by
  rw [pendingMeasured, (h.map _).sum_eq, List.map_cons, List.sum_cons]

/-- What a step on one client keeps holds when the client is written back. -/
theorem Accounted.put {fd : Fd} (h : Accounted now gen)
    (hlookup : gen.clients.lookup fd = some client)
    (hkeeps : Keeps now gen client gen' client') :
  Accounted now (gen'.put fd client')
  := by
  obtain ⟨others, hvalues, -, hassign⟩ := AList.exists_perm_values hlookup
  have hput : (gen'.put fd client').clients.values.Perm (client' :: others) := by
    rw [LoadGen.put, hkeeps.clients_eq]
    apply hassign
  have hmeasured : (gen'.put fd client').measuredPending = gen.measuredPending :=
    hkeeps.measuredPending_eq
  have hmem : client ∈ gen.clients.values := AList.mem_values.mpr ⟨fd, hlookup⟩
  obtain ⟨more, hcounted, hacks, hrtts, hphases⟩ := hkeeps.counted (h.sent client hmem)
  constructor
  case toBalanced =>
    constructor
    case moves =>
      have := h.moves
      have := hkeeps.moves
      show gen'.result.plannedMoveFrames
        = gen'.result.sentMoveFrames + gen'.result.missedMoveDeadlines
      omega
    case heartbeats =>
      have hbefore := h.heartbeats
      have hstep := hkeeps.heartbeats
      rw [pendingMeasured_perm hvalues] at hbefore
      rw [pendingMeasured_perm hput, hmeasured]
      show gen'.result.heartbeatFrames = gen'.result.heartbeatAcks + _
      omega
    case counted =>
      show gen'.counted.length = gen'.result.heartbeatAcks
        ∧ ∀ phase ∈ gen'.counted, phase = .measure
      rw [hcounted, hacks, List.length_append, h.counted.1]
      use rfl
      intro phase hphase
      rcases List.mem_append.mp hphase with hmem | hmem
      · apply h.counted.2 phase hmem
      · apply hphases phase hmem
    case rtts =>
      show gen'.heartbeatRttUs.length = gen'.result.heartbeatAcks
      rw [hrtts, hacks, h.rtts]
    case joins =>
      have hbefore := h.joins
      have hstep := hkeeps.joins
      rw [activeClientCount_perm hvalues] at hbefore
      rw [activeClientCount_perm hput]
      show gen'.result.joinSuccesses = _
      omega
  case sent =>
    intro other hother
    have hdeadline : gen'.phaseDeadline = gen.phaseDeadline := by rw [hkeeps.rest]
    have hok : gen.ClientOk now other := by
      rcases List.mem_cons.mp (hput.mem_iff.mp hother) with rfl | hother
      · apply hkeeps.sent (h.sent client hmem)
      · apply h.sent other (hvalues.mem_iff.mpr (List.mem_cons_of_mem _ hother))
    have hcongr : (gen'.put fd client').ClientOk now other ↔ gen.ClientOk now other :=
      clientOk_congr hkeeps.measured_eq hkeeps.state_eq hdeadline
    apply hcongr.mpr hok
  case timed =>
    have htimed := h.timed
    rw [LoadGen.put, hkeeps.rest]
    exact htimed
  case lasting =>
    have hlasting := h.lasting
    rw [LoadGen.put, hkeeps.rest]
    exact hlasting

/-- The clients as far as the accounting looks at them. -/
def view (client : Client) : List Heartbeat × Nat :=
  (client.pendingHeartbeats.values, activity client)

/-- The active clients can be counted from the views. -/
theorem activeClientCount_eq (gen : LoadGen) :
  gen.activeClientCount = ((gen.clients.values.map view).map Prod.snd).sum
  := by
  rw [activeClientCount, List.map_map]
  induction gen.clients.values with
  | nil => rfl
  | cons client clients ih =>
    rw [List.countP_cons, ih, List.map_cons, List.sum_cons, Nat.add_comm]
    simp [view, activity]

/-- So can the heartbeats that are pending. -/
theorem pendingMeasured_eq (gen : LoadGen) :
  gen.pendingMeasured = ((gen.clients.values.map view).map fun v =>
    v.1.countP fun heartbeat => gen.measured heartbeat.sentTime).sum
  := by
  rw [List.map_map]
  rfl

/-- A step that counts nothing, and after which the same heartbeats are in order and count as sent
while measuring. -/
theorem Accounted.of_views {now' : Time} (h : Accounted now gen)
    (hsame : gen'.result = gen.result ∧ gen'.counted = gen.counted
      ∧ gen'.heartbeatRttUs = gen.heartbeatRttUs ∧ gen'.config = gen.config)
    (hclients : (gen'.clients.values.map view).Perm (gen.clients.values.map view))
    (hheartbeat : ∀ heartbeat, gen.HeartbeatOk now heartbeat →
      gen'.measured heartbeat.sentTime = gen.measured heartbeat.sentTime
        ∧ gen'.HeartbeatOk now' heartbeat)
    (htimed : gen'.Timed now') :
  Accounted now' gen'
  := by
  obtain ⟨hresult, hcounted, hrtts, hconfig⟩ := hsame
  have hviews : ∀ v ∈ gen.clients.values.map view, ∀ heartbeat ∈ v.1,
      gen.HeartbeatOk now heartbeat := by
    intro v hv heartbeat hmem
    obtain ⟨client, hclient, rfl⟩ := List.mem_map.mp hv
    apply h.sent client hclient heartbeat hmem
  have hpending : gen'.pendingMeasured = gen.pendingMeasured := by
    rw [pendingMeasured_eq, pendingMeasured_eq, (hclients.map _).sum_eq]
    congr 1
    apply List.map_congr_left
    intro v hv
    apply List.countP_congr
    intro heartbeat hmem
    rw [(hheartbeat heartbeat (hviews v hv heartbeat hmem)).1]
  have hactive : gen'.activeClientCount = gen.activeClientCount := by
    rw [activeClientCount_eq, activeClientCount_eq, (hclients.map _).sum_eq]
  constructor
  case toBalanced =>
    constructor
    · rw [hresult]
      apply h.moves
    · rw [hresult, hpending]
      apply h.heartbeats
    · rw [hresult, hcounted]
      apply h.counted
    · rw [hresult, hrtts]
      apply h.rtts
    · rw [hresult, hactive]
      apply h.joins
  case sent =>
    intro client hclient heartbeat hmem
    have hview := hclients.mem_iff.mp (List.mem_map_of_mem hclient)
    apply (hheartbeat heartbeat (hviews _ hview heartbeat hmem)).2
  case timed => exact htimed
  case lasting =>
    rw [hconfig]
    apply h.lasting

/-! ### Driving the clients -/

/-- A client that fails fails the run. -/
@[simp]
theorem state_failClient (gen : LoadGen) (fd : Fd) (failure : Failurestates) :
  (gen.failClient fd failure).state = .failed
  := by
  rw [failClient]
  split
  · rfl
  · rfl

/-- A turn of the loop that drives the clients either fails the run or goes on. -/
theorem driveClient_accounted {fd : Fd} {outcomes : List Connection.WriteOutcome} {goOn : Bool}
    (h : Accounted now gen) (hready : gen.Ready now)
    (hdrive : gen.driveClient fd now outcomes = some (goOn, gen')) :
  (goOn = false ∧ gen'.state = .failed) ∨ (goOn = true ∧ Accounted now gen' ∧ gen'.Ready now)
  := by
  rw [driveClient] at hdrive
  split at hdrive
  · cases hdrive
    exact .inr ⟨rfl, h, hready⟩
  next client hlookup =>
  split at hdrive
  · cases hdrive
    exact .inr ⟨rfl, h, hready⟩
  split at hdrive
  · cases hdrive
  · cases hdrive
    exact .inl ⟨rfl, state_failClient _ _ _⟩
  next gen₁ client₁ hheartbeat =>
  have hkeeps₁ := driveHeartbeat_keeps hready hheartbeat
  split at hdrive
  · cases hdrive
  · cases hdrive
    exact .inl ⟨rfl, state_failClient _ _ _⟩
  next gen₂ client₂ hmove =>
  have hkeeps₂ : Keeps now gen client gen₂ client₂ := hkeeps₁.trans (driveMove_keeps hmove)
  split at hdrive
  · cases hdrive
    exact .inl ⟨rfl, state_failClient _ _ _⟩
  next client₃ hwrite =>
  cases hdrive
  have hkeeps₃ : Keeps now gen client gen₂ client₃ :=
    hkeeps₂.trans (Keeps.of_eq (driveWrite_same hwrite))
  right
  use rfl, h.put hlookup hkeeps₃
  have hready' := hready.of_keeps hkeeps₃
  exact ⟨hready'.measured, hready'.before⟩

/-- The loop that drives the clients keeps the accounts, or fails the run on the way. -/
theorem driveActiveClients_accounted {sends : Fd → List Connection.WriteOutcome} {fds : List Fd}
    (h : Accounted now gen) (hready : gen.Ready now)
    (hdrive : driveActiveClients now sends fds gen = some gen') :
  gen'.state = .failed ∨ Accounted now gen'
  := by
  induction fds generalizing gen with
  | nil =>
    cases hdrive
    exact .inr h
  | cons fd fds ih =>
    rw [driveActiveClients] at hdrive
    split at hdrive
    · cases hdrive
    next gen₁ hclient =>
      cases hdrive
      rcases driveClient_accounted h hready hclient with ⟨-, hfailed⟩ | ⟨⟨⟩, -⟩
      exact .inl hfailed
    next gen₁ hclient =>
      rcases driveClient_accounted h hready hclient with ⟨⟨⟩, -⟩ | ⟨-, h₁, hready₁⟩
      apply ih h₁ hready₁ hdrive

/-! ### Events -/

/-- Reading leaves the failure of the run, or goes on. -/
theorem readEvent_keeps {event : PollEvent}
    (h : gen.readEvent client event = .inr (gen', client')) :
  Keeps now gen client gen' client'
  := by
  rw [readEvent] at h
  split at h
  · split at h
    next gen₁ client₁ hread =>
      cases h
      apply readFromClient_keeps hread
    next gen₁ client₁ hread =>
      dsimp only at h
      split at h
      · cases h
      · split at h
        · cases h
        · cases h
  · cases h
    apply Keeps.of_same rfl rfl

/-- Room in the socket is used for what waits in the write buffer. -/
theorem writeEvent_keeps {event : PollEvent} (h : gen.writeEvent client event = (true, gen')) :
  ∃ client', Keeps now gen client gen client' ∧ gen' = gen.put event.fd client'
  := by
  rw [writeEvent] at h
  split at h
  next success written hwrite =>
  have hsame : written.pendingHeartbeats = client.pendingHeartbeats
      ∧ written.state = client.state := by
    split at hwrite
    · apply writeToClient_same hwrite
    · cases hwrite
      exact ⟨rfl, rfl⟩
  dsimp only at h
  split at h
  · cases h
  split at h
  · cases h
  split at h
  · cases h
  · cases h
    exact ⟨written, Keeps.of_eq hsame, rfl⟩

/-- An event at the socket of a client keeps the accounts, or fails the run. -/
theorem updateClientEvents_accounted {event : PollEvent} (h : Accounted now gen)
    (hupdate : gen.updateClientEvents event = (true, gen')) :
  Accounted now gen'
  := by
  rw [updateClientEvents] at hupdate
  split at hupdate
  · cases hupdate
    exact h
  next client hlookup =>
  split at hupdate
  · cases hupdate
    exact h
  split at hupdate
  · cases hupdate
  next gen₁ client₁ hconnect =>
  split at hupdate
  · cases hupdate
  next gen₂ client₂ hread =>
  have hkeeps : Keeps now gen client gen₂ client₂ :=
    (connectEvent_keeps hconnect).trans (readEvent_keeps hread)
  obtain ⟨client₃, hwrite, hput⟩ := writeEvent_keeps hupdate
  rw [hput]
  apply h.put hlookup
  apply hkeeps.trans hwrite

/-- So do all the events of a poll. -/
theorem handleEvents_accounted {events : List PollEvent} (h : Accounted now gen)
    (hevents : gen.handleEvents events = (true, gen')) :
  Accounted now gen'
  := by
  induction events generalizing gen with
  | nil =>
    cases hevents
    exact h
  | cons event events ih =>
    rw [handleEvents] at hevents
    split at hevents
    · cases hevents
    next gen₁ hupdate => apply ih (updateClientEvents_accounted h hupdate) hevents

/-- A poll keeps the accounts when it succeeds. -/
theorem pollOnce_accounted {outcome : PollOutcome} (h : Accounted now gen)
    (hpoll : gen.pollOnce outcome = (true, gen')) :
  Accounted now gen'
  := by
  cases outcome with
  | interrupted =>
    cases hpoll
    exact h
  | failed => cases hpoll
  | events events => apply handleEvents_accounted h hpoll

/-! ### New clients -/

/-- A new client that is not active and has sent nothing. -/
theorem Accounted.insert {fd : Fd} {attempts : Nat} (h : Accounted now gen)
    (hfresh : fd ∉ gen.clients) (hpending : client.pendingHeartbeats.values = [])
    (hactive : client.state ≠ .active) :
  Accounted now { gen with
    clients := gen.clients.insert fd client
    result := { gen.result with connectionAttempts := attempts } }
  := by
  have hvalues := AList.values_insert_of_notMem hfresh client
  constructor
  case toBalanced =>
    constructor
    · apply h.moves
    · have hnone : gen.measuredPending client = 0 := by
        rw [measuredPending, hpending]
        rfl
      rw [pendingMeasured, hvalues, List.map_cons, List.sum_cons]
      show gen.result.heartbeatFrames = gen.result.heartbeatAcks
        + (gen.measuredPending client + (gen.clients.values.map gen.measuredPending).sum)
      rw [hnone, Nat.zero_add]
      apply h.heartbeats
    · apply h.counted
    · apply h.rtts
    · rw [activeClientCount, hvalues, List.countP_cons_of_neg (by simpa using hactive)]
      apply h.joins
  case sent =>
    intro other hother heartbeat hmem
    rw [hvalues] at hother
    rcases List.mem_cons.mp hother with rfl | hother
    · rw [hpending] at hmem
      cases hmem
    · obtain ⟨hphase, hsent, hbefore⟩ := h.sent other hother heartbeat hmem
      exact ⟨hphase, hsent, hbefore⟩
  case timed => apply h.timed
  case lasting => apply h.lasting

/-- A client that is created is connecting, and no other client has its descriptor. -/
theorem createClient_started {platform : Platform} {index : Nat} {time : Time}
    {outcome : ConnectOutcome}
    (hcreate : gen.createClient platform index time outcome = (true, gen')) :
  ∃ fd client attempts, fd ∉ gen.clients ∧ client.state = .connecting
    ∧ client.pendingHeartbeats.values = [] ∧ gen' = { gen with
      clients := gen.clients.insert fd client
      result := { gen.result with connectionAttempts := attempts } }
  := by
  cases outcome with
  | socketFailed => cases hcreate
  | connectFailed fd =>
    rw [createClient] at hcreate
    split at hcreate
    · cases hcreate
    · cases hcreate
  | epollFailed fd =>
    rw [createClient] at hcreate
    split at hcreate
    · cases hcreate
    split at hcreate
    · cases hcreate
    · cases hcreate
  | started fd =>
    rw [createClient] at hcreate
    split at hcreate
    · cases hcreate
    split at hcreate
    · cases hcreate
    next hfresh =>
    cases hcreate
    exact ⟨fd, _, _, hfresh, rfl, rfl, rfl⟩

/-- A new client is accounted for. -/
theorem createClient_accounted {platform : Platform} {index : Nat} {time : Time}
    {outcome : ConnectOutcome} (h : Accounted now gen)
    (hcreate : gen.createClient platform index time outcome = (true, gen')) :
  Accounted now gen' ∧ gen'.state = gen.state
  := by
  obtain ⟨fd, client, attempts, hfresh, hconnecting, hpending, rfl⟩ := createClient_started hcreate
  constructor
  · apply h.insert hfresh hpending
    rw [hconnecting]
    rintro ⟨⟩
  · rfl

/-- So are the clients that are created one after the other. -/
theorem startLoop_accounted {platform : Platform} {time connect : Time}
    {connects : Nat → ConnectOutcome} {turns : Nat} (h : Accounted now gen)
    (hstart : startLoop platform time connect connects turns gen = (true, gen')) :
  Accounted now gen' ∧ gen'.state = gen.state
  := by
  induction turns generalizing gen with
  | zero =>
    cases hstart
    exact ⟨h, rfl⟩
  | succ turns ih =>
    rw [startLoop] at hstart
    split at hstart
    · split at hstart
      · cases hstart
      next gen₁ hcreate =>
      obtain ⟨h₁, hstate₁⟩ := createClient_accounted h hcreate
      have hnext : Accounted now { gen₁ with
          nextClientIndex := gen₁.nextClientIndex + 1
          nextConnectTime := gen₁.nextConnectTime + connect } := by
        apply h₁.of_views
        case hsame => exact ⟨rfl, rfl, rfl, rfl⟩
        case hclients => exact .refl _
        case hheartbeat => exact fun heartbeat hok => ⟨rfl, hok.phase, hok.sent, hok.before⟩
        case htimed => apply h₁.timed
      obtain ⟨h', hstate'⟩ := ih hnext hstart
      exact ⟨h', hstate'.trans hstate₁⟩
    · cases hstart
      exact ⟨h, rfl⟩

/-- Clients that are there stay as they are when others are created. -/
theorem lookup_startLoop {platform : Platform} {time connect : Time}
    {connects : Nat → ConnectOutcome} {turns : Nat} {fd : Fd}
    (hlookup : gen.clients.lookup fd = some client)
    (hstart : startLoop platform time connect connects turns gen = (true, gen')) :
  gen'.clients.lookup fd = some client
  := by
  induction turns generalizing gen with
  | zero =>
    cases hstart
    exact hlookup
  | succ turns ih =>
    rw [startLoop] at hstart
    split at hstart
    · split at hstart
      · cases hstart
      next gen₁ hcreate =>
      obtain ⟨fd', client', attempts, hfresh, -, -, rfl⟩ := createClient_started hcreate
      have hne : fd ≠ fd' := by
        rintro rfl
        apply hfresh
        apply AList.mem_iff_lookup.mpr ⟨client, hlookup⟩
      apply ih _ hstart
      dsimp only
      rw [AList.lookup_insert_ne hne]
      exact hlookup
    · cases hstart
      exact hlookup

/-- When all clients are active, none has been created in this turn. -/
theorem startDueClients_of_allClientsActive {platform : Platform} {time : Time}
    {connects : Nat → ConnectOutcome}
    (hstart : gen.startDueClients platform time connects = (true, gen'))
    (hactive : gen'.allClientsActive = true) :
  gen' = gen
  := by
  rw [startDueClients] at hstart
  split at hstart
  · cases hstart
  cases hturns : gen.config.clientCount - gen.nextClientIndex with
  | zero =>
    rw [hturns] at hstart
    cases hstart
    rfl
  | succ turns =>
    rw [hturns, startLoop] at hstart
    split at hstart
    · split at hstart
      · cases hstart
      next gen₁ hcreate =>
      obtain ⟨fd, client, attempts, -, hconnecting, -, rfl⟩ := createClient_started hcreate
      have hlookup := lookup_startLoop (AList.lookup_insert _) hstart
      simp only [allClientsActive, decide_eq_true_eq] at hactive
      have hstate := hactive.2.2 client (AList.mem_values.mpr ⟨fd, hlookup⟩)
      rw [hconnecting] at hstate
      cases hstate
    · cases hstart
      rfl

/-- The clients that are due are accounted for. -/
theorem startDueClients_accounted {platform : Platform} {time : Time}
    {connects : Nat → ConnectOutcome} (h : Accounted now gen)
    (hstart : gen.startDueClients platform time connects = (true, gen')) :
  Accounted now gen' ∧ gen'.state = gen.state
  := by
  rw [startDueClients] at hstart
  split at hstart
  · cases hstart
  · apply startLoop_accounted h hstart

end LoadGen

end RoomServer
