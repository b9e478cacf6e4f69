import RoomServer.Net.ConnectionLoop
import RoomServer.Net.Codec

/-!
# The outbound stream of a connection

A connection on its loop refines an outbox: every step of the loop and of the other threads is
a step of the outbox, or none.  So the bytes the socket takes are those of the sends that ran,
in their order, and the write debt is what the write buffer and the reserved sends hold.
-/

namespace RoomServer

open Connection

/-! ### The abstraction -/

def Connection.State.phase : Connection.State → Phase
  | .connecting => .starting
  | .connected => .running
  | .disconnecting | .disconnected => .closed

namespace IoRun

/-- The send the thread of the loop is busy with, and whether it is reserved. -/
def Pc.waiting : Pc → List (Send × Bool)
  | .reserve send _ => [(send, false)]
  | .sendInLoop send => [(send, true)]
  | _ => []

def Progress.isGranted : Progress → Bool
  | .granted => true
  | .reserving _ => false

@[simp]
theorem isGranted_granted : Progress.granted.isGranted = true := rfl

@[simp]
theorem isGranted_reserving (reservation : Reservation) :
  (Progress.reserving reservation).isGranted = false
  := rfl

/-- The threads whose sends proceed. -/
def senders (run : IoRun) : List Thread := run.calls.map fun call => call.1.sender

/-- The sends whose functors are in the queue of the loop. -/
def queued (run : IoRun) : List Send :=
  (run.functors ++ run.pendingFunctors).filterMap Functor.send

/-- The sends that have not run, in the order in which they would. -/
def waiting (run : IoRun) : List (Send × Bool) :=
  run.pc.waiting ++ (run.queued.map (·, true)
    ++ run.calls.map fun call => (call.1, call.2.isGranted))

def outbox (run : IoRun) : Outbox Thread UInt8 where
  phase := run.connection.state.phase
  debt := run.connection.pendingWriteBytes
  overdrawn := run.connection.overReleased
  buffer := run.connection.writeBuffer.content
  sent := run.socket
  accepted := run.ran
  waiting := run.waiting
  made := run.made
  returned := run.returned

variable {run run' : IoRun}

theorem phase_eq_running {state : Connection.State} :
  state.phase = .running ↔ state = .connected
  := by
  cases state <;> simp [Connection.State.phase]

/-- Connections that differ only in what the outbound stream does not depend on. -/
structure SameOutbound (connection connection' : Connection) : Prop where
  state : connection'.state = connection.state
  writeBuffer : connection'.writeBuffer = connection.writeBuffer
  pendingWriteBytes : connection'.pendingWriteBytes = connection.pendingWriteBytes
  overReleased : connection'.overReleased = connection.overReleased

theorem SameOutbound.outbox {connection connection' : Connection}
    (h : SameOutbound connection connection') (run : IoRun) :
  { run with connection := connection' }.outbox = { run with connection }.outbox
  := by
  simp only [IoRun.outbox, h.state, h.writeBuffer, h.pendingWriteBytes, h.overReleased]
  rfl

theorem readFromSocket_same {connection connection' : Connection} {reads : List ReadOutcome}
    {success : Bool} (h : connection.readFromSocket reads = some (success, connection')) :
  SameOutbound connection connection'
  := by
  rw [readFromSocket_eq h]
  exact ⟨rfl, rfl, rfl, rfl⟩

theorem outbox_release (run : IoRun) (n : Nat) :
  { run with connection := run.connection.releaseWriteBytes n }.outbox = run.outbox.repay n
  := by
  rw [releaseWriteBytes, Outbox.repay]
  by_cases hn : n = 0
  · rw [if_pos hn, hn, if_neg (Nat.not_lt_zero _)]
    rfl
  · rw [if_neg hn]
    by_cases hlt : run.connection.pendingWriteBytes < n
    · rw [if_pos hlt, if_pos (show run.outbox.debt < n from hlt)]
      rfl
    · rw [if_neg hlt, if_neg (show ¬run.outbox.debt < n from hlt)]
      rfl

theorem outbox_clear (run : IoRun) :
  { run with connection := run.connection.clearWriteBufferInLoop }.outbox
    = { run.outbox.repay run.connection.writeBuffer.readableBytes with buffer := [] }
  := by
  rw [clearWriteBufferInLoop]
  by_cases hn : run.connection.writeBuffer.readableBytes = 0
  · have hcontent : run.connection.writeBuffer.content = [] := by
      rw [← List.length_eq_zero_iff, Buffer.length_content, hn]
    rw [if_pos hn, hn, Outbox.repay, if_neg (Nat.not_lt_zero _)]
    simp only [outbox, hcontent, Nat.sub_zero]
  · rw [if_neg hn, releaseWriteBytes, if_neg hn, Outbox.repay]
    by_cases hlt : run.connection.pendingWriteBytes < run.connection.writeBuffer.readableBytes
    · rw [if_pos hlt, if_pos (show run.outbox.debt < _ from hlt)]
      simp only [outbox, Buffer.content_retrieveAll]
      rfl
    · rw [if_neg hlt, if_neg (show ¬run.outbox.debt < _ from hlt)]
      simp only [outbox, Buffer.content_retrieveAll]
      rfl

/-! ### The state of the threads -/

/-- The sends that wait in the queue or proceed in other threads are not those of the loop, one
for each thread; a write is made only when the connection is connected; and an exchange is
tried only when there is room. -/
structure Tidy (run : IoRun) : Prop where
  queued : ∀ s ∈ run.queued, s.sender ≠ .loop
  others : .loop ∉ run.senders
  distinct : run.senders.Nodup
  writing : ∀ events, run.pc = .writeToSocket events → run.connection.state = .connected
  fits : ∀ s cur, run.pc = .reserve s (.exchange cur) → cur + s.data.length ≤ writeHardLimit
  fitsOther : ∀ call ∈ run.calls, ∀ cur, call.2 = .reserving (.exchange cur) →
    cur + call.1.data.length ≤ writeHardLimit

/-- The threads are in order, and the outbox takes a step. -/
structure Advances (run run' : IoRun) : Prop where
  tidy : run'.Tidy
  step : Outbox.Step writeHardLimit run.outbox run'.outbox

/-- The thread of the loop returns to its caller. -/
theorem Tidy.toReady (h : run.Tidy) (hqueued : run'.queued = run.queued)
    (hcalls : run'.calls = run.calls) (hpc : run'.pc = .ready) :
  run'.Tidy
  where
  queued := by
    rw [hqueued]
    apply h.queued
  others := by
    rw [senders, hcalls]
    apply h.others
  distinct := by
    rw [senders, hcalls]
    apply h.distinct
  writing := by
    rw [hpc]
    rintro events ⟨⟩
  fits := by
    rw [hpc]
    rintro s cur ⟨⟩
  fitsOther := by
    rw [hcalls]
    apply h.fitsOther

/-! ### The functions of the loop -/

/-- A thread that is busy with no send may go on. -/
theorem outbox_goto (hpc : run.pc.waiting = []) (connection : Connection) (pc : Pc)
    (hpc' : pc.waiting = []) (callers : List Caller) :
  { run with connection, pc, callers }.outbox = { run with connection }.outbox
  := by
  simp only [outbox, waiting, hpc, hpc']
  rfl

theorem handleClose_advances (h : run.Tidy) (hpc : run.pc.waiting = []) :
  Advances run run.handleClose
  := by
  obtain ⟨-, hclose⟩ | ⟨-, hclose⟩ := run.handleClose_cases
  · rw [hclose]
    refine ⟨h.toReady rfl rfl rfl, ?_⟩
    rw [outbox_goto hpc _ .ready rfl]
    exact .skip
  · rw [hclose]
    refine ⟨h.toReady rfl rfl rfl, ?_⟩
    rw [outbox_goto hpc _ .ready rfl]
    have hclear := outbox_clear { run with
      connection := { run.connection with state := .disconnecting } }
    have hphase : { run with
        connection := { run.connection with state := .disconnecting } }.outbox
        = { run.outbox with phase := .closed } := rfl
    rw [hphase, Outbox.repay_phase] at hclear
    rw [hclear, ← Buffer.length_content]
    exact .close

theorem connectDestroyed_advances (h : run.Tidy) (hpc : run.pc = .ready) :
  Advances run { run with connection := run.connection.connectDestroyed }
  := by
  constructor
  · exact h.toReady rfl rfl hpc
  · rw [Connection.connectDestroyed]
    split
    · exact .skip
    · have hclear := outbox_clear { run with
        connection := { run.connection with registered := false } }
      have hphase : ∀ connection : Connection, { run with
          connection := { connection with close := true, state := .disconnected } }.outbox
          = { { run with connection }.outbox with phase := .closed } := fun _ => rfl
      rw [hphase, hclear, ← Buffer.length_content]
      exact .close

/-- The thread of the loop goes on where no send is touched. -/
theorem goto_advances (h : run.Tidy) (hpc : run.pc.waiting = []) {connection : Connection}
    (hsame : SameOutbound run.connection connection) (pc : Pc) (hpc' : pc.waiting = [])
    (callers : List Caller)
    (hwriting : ∀ events, pc = .writeToSocket events → run.connection.state = .connected) :
  Advances run { run with connection, pc, callers }
  := by
  constructor
  · refine { h with writing := ?_, fits := ?_ }
    · intro events hevents
      change connection.state = .connected
      rw [hsame.state]
      apply hwriting events hevents
    · rintro s cur (rfl : pc = _)
      cases hpc'
  · rw [outbox_goto hpc _ pc hpc', hsame.outbox]
    exact .skip

theorem sameOutbound_refl (connection : Connection) : SameOutbound connection connection :=
  ⟨rfl, rfl, rfl, rfl⟩

theorem connectEstablished_advances (h : run.Tidy) (hpc : run.pc = .ready) (added : Bool) :
  Advances run (run.connectEstablished added)
  := by
  obtain hsame | ⟨hconnecting, -, -, hestablish⟩ | hclose := run.connectEstablished_cases added
  · rw [hsame]
    exact ⟨h, .skip⟩
  · rw [hestablish]
    refine ⟨h.toReady rfl rfl hpc, ?_⟩
    apply Outbox.Step.start
    change run.connection.state.phase = .starting
    rw [hconnecting]
    rfl
  · rw [hclose]
    apply handleClose_advances h (by rw [hpc]; rfl)

theorem checkTimeoutInLoop_advances (h : run.Tidy) (hpc : run.pc.waiting = [])
    (now timeout : Int) :
  Advances run (run.checkTimeoutInLoop now timeout)
  := by
  obtain hclose | hsame := run.checkTimeoutInLoop_cases now timeout
  · rw [hclose]
    apply handleClose_advances h hpc
  · rw [hsame]
    exact ⟨h, .skip⟩

/-- However the handling of an event or of a write ends, no send is touched. -/
theorem Ends.advances (hends : run.Ends run') (h : run.Tidy) (hpc : run.pc.waiting = []) :
  Advances run run'
  := by
  cases hends with
  | stay => exact ⟨h, .skip⟩
  | close => apply handleClose_advances h hpc
  | write events hstate =>
    apply goto_advances h hpc (sameOutbound_refl _) _ rfl _ fun _ _ => hstate
  | update => apply goto_advances h hpc (sameOutbound_refl _) .updateFd rfl _ (by rintro events ⟨⟩)

theorem handleEvent_advances (h : run.Tidy) (hpc : run.pc = .ready) {events : UInt32}
    {reads : List ReadOutcome} (hevent : run.handleEvent events reads = some run') :
  Advances run run'
  := by
  have hwaiting : run.pc.waiting = [] := by rw [hpc]; rfl
  obtain ⟨-, hends⟩ | ⟨-, success, connection, hread, rfl⟩ := handleEvent_cases hevent
  · apply hends.advances h hwaiting
  have hsame := readFromSocket_same hread
  have htidy : Tidy { run with connection } := h.toReady rfl rfl hpc
  cases success with
  | false =>
    obtain ⟨htidy', hstep⟩ := handleClose_advances htidy hwaiting
    rw [hsame.outbox] at hstep
    exact ⟨htidy', hstep⟩
  | true =>
    refine ⟨h.toReady rfl rfl hpc, ?_⟩
    change Outbox.Step _ run.outbox { run with connection }.outbox
    rw [hsame.outbox]
    exact .skip

/-! ### Sending -/

theorem sendInLoop_advances (h : run.Tidy) {send : Send} (hpc : run.pc = .sendInLoop send) :
  Advances run (run.sendInLoop send)
  := by
  have hline : run.outbox.waiting = (send, true) :: (run.queued.map (·, true)
      ++ run.calls.map fun call => (call.1, call.2.isGranted)) := by
    simp only [outbox, waiting, hpc]
    rfl
  rw [sendInLoop]
  split
  · next hdrop =>
    refine ⟨h.toReady rfl rfl rfl, ?_⟩
    have hstep := @Outbox.Step.drop _ _ writeHardLimit _ send _ hline ?_
    · rw [← outbox_release] at hstep
      exact hstep
    · apply hdrop.imp_left fun hne hphase => hne (phase_eq_running.mp hphase)
  · next hdrop =>
    simp only [not_or, not_not] at hdrop
    constructor
    · exact { h with writing := fun _ _ => hdrop.1, fits := by rintro s cur ⟨⟩ }
    · have hstep := @Outbox.Step.accept _ _ writeHardLimit _ send _ hline
        (phase_eq_running.mpr hdrop.1)
      simp only [outbox, Buffer.content_append]
      exact hstep

/-- A turn of a write that goes on hands the front of the write buffer to the socket. -/
theorem outbox_written (run : IoRun) (n : Nat) :
  { run with
    connection := { run.connection with
      writeBuffer := run.connection.writeBuffer.retrieve n }.releaseWriteBytes n
    socket := run.socket ++ run.connection.writeBuffer.content.take n }.outbox
    = { run.outbox.repay n with
      buffer := run.outbox.buffer.drop n, sent := run.outbox.sent ++ run.outbox.buffer.take n }
  := by
  have hrelease := outbox_release { run with
    connection := { run.connection with writeBuffer := run.connection.writeBuffer.retrieve n }
    socket := run.socket ++ run.connection.writeBuffer.content.take n } n
  rw [hrelease, Outbox.repay, Outbox.repay]
  have hdebt : { run with
    connection := { run.connection with writeBuffer := run.connection.writeBuffer.retrieve n }
    socket := run.socket ++ run.connection.writeBuffer.content.take n }.outbox.debt
    = run.outbox.debt := rfl
  rw [hdebt]
  split
  all_goals
    simp only [outbox, Buffer.content_retrieve]
    rfl

theorem writeToSocket_advances (h : run.Tidy) {events : Option UInt32}
    (hpc : run.pc = .writeToSocket events) (outcome : WriteOutcome) :
  Advances run (run.writeToSocket events outcome)
  := by
  obtain hends | hsame | ⟨k, hk, heq⟩ := writeToSocket_cases hpc outcome
  · apply hends.advances h (by rw [hpc]; rfl)
  · rw [hsame]
    exact ⟨h, .skip⟩
  · rw [heq]
    constructor
    · refine { h with writing := ?_ }
      intro _ _
      rw [state_releaseWriteBytes]
      apply h.writing events hpc
    · rw [outbox_written]
      apply Outbox.Step.send _ (phase_eq_running.mpr (h.writing events hpc))
      rwa [show run.outbox.buffer.length = _ from Buffer.length_content _]

theorem updateFd_advances (h : run.Tidy) (hpc : run.pc = .updateFd) (success : Bool) :
  Advances run (run.updateFd success)
  := by
  have hwaiting : run.pc.waiting = [] := by rw [hpc]; rfl
  rw [updateFd]
  split
  · refine ⟨h.toReady rfl rfl rfl, ?_⟩
    change Outbox.Step _ run.outbox { run with pc := .ready }.outbox
    rw [outbox_goto hwaiting _ .ready rfl]
    exact .skip
  · apply handleClose_advances h hwaiting

/-! ### The steps -/

/-- A step of a reservation leaves the connection as it is, or takes out the room. -/
theorem reserveWriteBytes_cases {connection connection' : Connection} {len : Nat}
    {spurious : Bool} {reservation : Reservation} {verdict : Attempt}
    (hfits : ∀ cur, reservation = .exchange cur → cur + len ≤ writeHardLimit)
    (h : connection.reserveWriteBytes len spurious reservation = (verdict, connection')) :
  connection' = connection
      ∧ (verdict = .refused ∨ ∃ cur, verdict = .retry cur ∧ cur + len ≤ writeHardLimit)
    ∨ verdict = .granted ∧ connection.pendingWriteBytes + len ≤ writeHardLimit
      ∧ connection' = { connection with
        pendingWriteBytes := connection.pendingWriteBytes + len }
  := by
  have hattempt : ∀ cur, attempt len cur = .refused
      ∨ attempt len cur = .retry cur ∧ cur + len ≤ writeHardLimit := by
    intro cur
    rw [attempt]
    split
    · exact .inl rfl
    · right
      use rfl
      omega
  have hretry : connection' = connection ∧ verdict = attempt len connection.pendingWriteBytes →
      connection' = connection
        ∧ (verdict = .refused ∨ ∃ cur, verdict = .retry cur ∧ cur + len ≤ writeHardLimit) := by
    rintro ⟨hsame, hverdict⟩
    use hsame
    obtain hrefused | ⟨hretry, hle⟩ := hattempt connection.pendingWriteBytes
    · exact .inl (hverdict.trans hrefused)
    · exact .inr ⟨_, hverdict.trans hretry, hle⟩
  cases reservation with
  | load =>
    rw [reserveWriteBytes] at h
    split at h
    · cases h
      exact .inl ⟨rfl, .inl rfl⟩
    · cases h
      exact .inl (hretry ⟨rfl, rfl⟩)
  | exchange cur =>
    rw [reserveWriteBytes] at h
    split at h
    · next hexchange =>
      cases h
      right
      rw [hexchange.1]
      exact ⟨rfl, hfits cur rfl, rfl⟩
    · cases h
      exact .inl (hretry ⟨rfl, rfl⟩)

theorem send_advances (h : run.Tidy) (hpc : run.pc = .ready) (data : Bytes) :
  Advances run (run.send data)
  := by
  rw [IoRun.send]
  split
  · exact ⟨h.toReady rfl rfl hpc, .reject _ rfl⟩
  · constructor
    · refine { h with writing := ?_, fits := ?_ }
      · rintro events ⟨⟩
      · rintro s cur ⟨⟩
    · have hline : run.outbox.waiting = [] ++ run.waiting := rfl
      have hstep := @Outbox.Step.call _ _ writeHardLimit _ ⟨.loop, run.made, data⟩ [] _ rfl
        hline ?_
      · simp only [outbox, waiting, hpc] at hstep ⊢
        exact hstep
      · intro x hx
        simp only [waiting, hpc, Pc.waiting, List.nil_append, List.mem_append, List.mem_map] at hx
        rcases hx with ⟨s, hs, rfl⟩ | ⟨call, hcall, rfl⟩
        · apply h.queued s hs
        · intro hsender
          apply h.others (List.mem_map.mpr ⟨call, hcall, hsender⟩)

theorem reserve_advances (h : run.Tidy) {send : Send} {reservation : Reservation}
    {spurious : Bool} {verdict : Attempt} {connection : Connection}
    (hpc : run.pc = .reserve send reservation)
    (hreserve : run.connection.reserveWriteBytes send.data.length spurious reservation
      = (verdict, connection)) :
  Advances run (run.reserve send connection verdict)
  := by
  have hline : run.outbox.waiting = [] ++ (send, false) :: (run.queued.map (·, true)
      ++ run.calls.map fun call => (call.1, call.2.isGranted)) := by
    simp only [outbox, waiting, hpc]
    rfl
  have hcases := reserveWriteBytes_cases (fun cur hcur => h.fits send cur (by rw [hpc, hcur]))
    hreserve
  obtain ⟨rfl, rfl | ⟨cur, rfl, hle⟩⟩ | ⟨rfl, hroom, rfl⟩ := hcases
  · exact ⟨h.toReady rfl rfl rfl, .refuse send [] _ hline⟩
  · constructor
    · refine { h with writing := ?_, fits := ?_ }
      · rintro events ⟨⟩
      · rintro s cur' ⟨⟩
        exact hle
    · have hsame : (run.reserve send run.connection (.retry cur)).outbox = run.outbox := by
        simp only [outbox, waiting, IoRun.reserve, hpc]
        rfl
      rw [hsame]
      exact .skip
  · constructor
    · refine { h with writing := ?_, fits := ?_ }
      · rintro events ⟨⟩
      · rintro s cur ⟨⟩
    · exact .grant send [] _ hline hroom

theorem sendOther_advances (h : run.Tidy) {id : Nat} (data : Bytes)
    (hid : ∀ call ∈ run.calls, call.1.sender ≠ .other id) :
  Advances run { run with
    made := run.made + 1
    calls := run.calls ++ [(⟨.other id, run.made, data⟩, .reserving .load)] }
  := by
  constructor
  · refine { h with others := ?_, distinct := ?_, fitsOther := ?_ }
    · simpa [senders] using h.others
    · simp only [senders, List.map_append, List.map_cons, List.map_nil]
      apply List.nodup_append.mpr
      refine ⟨h.distinct, List.pairwise_singleton _ _, ?_⟩
      intro t ht t' ht'
      obtain ⟨call, hcall, rfl⟩ := List.mem_map.mp ht
      rw [List.mem_singleton] at ht'
      rw [ht']
      apply hid call hcall
    · intro call hcall cur hcur
      rcases List.mem_append.mp hcall with hcall | hcall
      · apply h.fitsOther call hcall cur hcur
      · rw [List.mem_singleton] at hcall
        rw [hcall] at hcur
        cases hcur
  · have hline : run.outbox.waiting = run.waiting ++ [] := (List.append_nil _).symm
    have hstep := @Outbox.Step.call _ _ writeHardLimit _ ⟨.other id, run.made, data⟩ _ _ rfl
      hline (by rintro x ⟨⟩)
    simpa only [outbox, waiting, queued, List.map_append, List.map_cons, List.map_nil,
      List.append_assoc, isGranted_reserving] using hstep

/-- A call in another thread goes on where it has room. -/
theorem Tidy.replaceCall (h : run.Tidy) {send : Send} {l r : List (Send × Progress)}
    {progress : Progress} (hcalls : run.calls = l ++ (send, progress) :: r)
    (connection : Connection) (hstate : connection.state = run.connection.state)
    (progress' : Progress)
    (hfits : ∀ cur, progress' = .reserving (.exchange cur) →
      cur + send.data.length ≤ writeHardLimit) :
  Tidy { run with connection, calls := l ++ (send, progress') :: r }
  := by
  have hsenders : { run with connection, calls := l ++ (send, progress') :: r }.senders
      = run.senders := by
    simp only [senders, hcalls, List.map_append, List.map_cons]
  refine { h with others := ?_, distinct := ?_, writing := ?_, fitsOther := ?_ }
  · rw [hsenders]
    apply h.others
  · rw [hsenders]
    apply h.distinct
  · intro events hpc
    apply hstate.trans (h.writing events hpc)
  · intro call hcall cur hcur
    rcases List.mem_append.mp hcall with hcall | hcall
    · apply h.fitsOther call (by rw [hcalls]; exact List.mem_append_left _ hcall) cur hcur
    · rcases List.mem_cons.mp hcall with rfl | hcall
      · apply hfits cur hcur
      · apply h.fitsOther call
          (by rw [hcalls]; exact List.mem_append_right _ (List.mem_cons_of_mem _ hcall)) cur hcur

/-- A call in another thread returns. -/
theorem Tidy.removeCall (h : run.Tidy) {send : Send} {l r : List (Send × Progress)}
    {progress : Progress} (hcalls : run.calls = l ++ (send, progress) :: r) :
  Tidy { run with calls := l ++ r }
  := by
  have hsublist : (l ++ r).Sublist run.calls := by
    rw [hcalls]
    apply (List.sublist_cons_self _ _).append_left l
  refine { h with others := ?_, distinct := ?_, fitsOther := ?_ }
  · intro hmem
    apply h.others ((hsublist.map _).subset hmem)
  · apply h.distinct.sublist (hsublist.map _)
  · intro call hcall
    apply h.fitsOther call (hsublist.subset hcall)

theorem reserveOther_advances (h : run.Tidy) {send : Send} {l r : List (Send × Progress)}
    {reservation : Reservation} {spurious : Bool} {verdict : Attempt} {connection : Connection}
    (hcalls : run.calls = l ++ (send, .reserving reservation) :: r)
    (hreserve : run.connection.reserveWriteBytes send.data.length spurious reservation
      = (verdict, connection)) :
  Advances run (run.reserveOther send l r connection verdict)
  := by
  have hmem : (send, Progress.reserving reservation) ∈ run.calls := by
    rw [hcalls]
    apply List.mem_append_right _ List.mem_cons_self
  have hline : run.outbox.waiting = (run.pc.waiting ++ (run.queued.map (·, true)
      ++ l.map fun call => (call.1, call.2.isGranted))) ++ (send, false)
      :: r.map fun call => (call.1, call.2.isGranted) := by
    simp only [outbox, waiting, hcalls, List.map_append, List.map_cons, List.append_assoc,
      Progress.isGranted]
  have hcases := reserveWriteBytes_cases
    (fun cur hcur => h.fitsOther _ hmem cur (by rw [hcur])) hreserve
  obtain ⟨rfl, rfl | ⟨cur, rfl, hle⟩⟩ | ⟨rfl, hroom, hconnection⟩ := hcases
  · constructor
    · exact { h.removeCall hcalls with }
    · have hstep := @Outbox.Step.refuse _ _ writeHardLimit _ send _ _ hline
      simpa only [reserveOther, outbox, waiting, queued, List.map_append, List.append_assoc]
        using hstep
  · constructor
    · apply h.replaceCall hcalls _ rfl
      rintro cur' ⟨⟩
      exact hle
    · have hsame : (run.reserveOther send l r run.connection (.retry cur)).outbox = run.outbox := by
        simp only [reserveOther, outbox, waiting, queued, hcalls, List.map_append, List.map_cons,
          isGranted_reserving]
      rw [hsame]
      exact .skip
  · constructor
    · apply h.replaceCall hcalls connection (by rw [hconnection])
      rintro cur' ⟨⟩
    · rw [hconnection]
      have hstep := @Outbox.Step.grant _ _ writeHardLimit _ send _ _ hline hroom
      simpa only [reserveOther, outbox, waiting, queued, List.map_append, List.map_cons,
        List.append_assoc, isGranted_granted] using hstep

theorem queueSend_advances (h : run.Tidy) {send : Send} {l r : List (Send × Progress)}
    (hcalls : run.calls = l ++ (send, .granted) :: r) :
  Advances run { run with
    calls := l ++ r
    pendingFunctors := run.pendingFunctors ++ [.sendInLoop send]
    returned := run.returned ++ [(send, true)] }
  := by
  have hsenders : run.senders
      = l.map (fun call => call.1.sender) ++ send.sender :: r.map fun call => call.1.sender := by
    simp only [senders, hcalls, List.map_append, List.map_cons]
  constructor
  · refine { h.removeCall hcalls with queued := ?_ }
    intro s hs
    simp only [queued, ← List.append_assoc, List.filterMap_append, List.mem_append] at hs
    rcases hs with hs | hs
    · apply h.queued s
      rw [queued, List.filterMap_append]
      apply List.mem_append.mpr hs
    · rw [show [Functor.sendInLoop send].filterMap Functor.send = [send] from rfl,
        List.mem_singleton] at hs
      rw [hs]
      intro hloop
      apply h.others
      rw [hsenders, hloop]
      apply List.mem_append_right _ List.mem_cons_self
  · have hline : run.outbox.waiting = (run.pc.waiting ++ run.queued.map (·, true))
        ++ ((l.map fun call => (call.1, call.2.isGranted)) ++ (send, true)
        :: r.map fun call => (call.1, call.2.isGranted)) := by
      simp only [outbox, waiting, hcalls, List.map_append, List.map_cons, List.append_assoc,
        isGranted_granted]
    have hstep := @Outbox.Step.post _ _ writeHardLimit _ send _ _ _ hline ?_
    · have hsend : [Functor.sendInLoop send].filterMap Functor.send = [send] := rfl
      simpa only [outbox, waiting, queued, List.append_assoc, List.filterMap_append,
        List.map_append, hsend, List.map_cons, List.map_nil, List.singleton_append] using hstep
    · intro x hx hsender
      obtain ⟨call, hcall, rfl⟩ := List.mem_map.mp hx
      have hdistinct := h.distinct
      rw [hsenders, List.nodup_append] at hdistinct
      apply hdistinct.2.2 _ (List.mem_map_of_mem hcall) _ List.mem_cons_self hsender

theorem runFunctor_advances (h : run.Tidy) (hpc : run.pc = .ready) {functor : Functor}
    {functors : List Functor} (hfunctors : run.functors = functor :: functors) (now : Int)
    (added : Bool) :
  Advances run ({ run with functors }.runFunctor now added functor)
  := by
  have hqueued : run.queued = (functor.send.toList ++ { run with functors }.queued) := by
    simp only [queued, hfunctors, List.cons_append, List.filterMap_cons]
    cases functor <;> rfl
  have htidy : Tidy { run with functors } := by
    refine { h with queued := ?_ }
    intro s hs
    apply h.queued s
    rw [hqueued]
    apply List.mem_append_right _ hs
  have hwaiting : { run with functors }.pc.waiting = [] := by
    rw [hpc]
    rfl
  -- A functor that comes from no send leaves the line as it is.
  have hother : functor.send = none → { run with functors }.outbox = run.outbox := by
    intro hsend
    rw [hsend, Option.toList_none, List.nil_append] at hqueued
    simp only [outbox, waiting, hqueued]
  cases functor with
  | sendInLoop send =>
    constructor
    · refine { htidy with writing := ?_, fits := ?_ }
      · rintro events ⟨⟩
      · rintro s cur ⟨⟩
    · have hsame : { run with functors, pc := .sendInLoop send }.outbox = run.outbox := by
        simp only [outbox, waiting, hqueued, hpc]
        rfl
      rw [runFunctor, hsame]
      exact .skip
  | handleClose =>
    obtain ⟨htidy', hstep⟩ := handleClose_advances htidy hwaiting
    exact ⟨htidy', hother rfl ▸ hstep⟩
  | checkTimeoutInLoop timeout =>
    obtain ⟨htidy', hstep⟩ := checkTimeoutInLoop_advances htidy hwaiting now timeout
    exact ⟨htidy', hother rfl ▸ hstep⟩
  | connectEstablished =>
    obtain ⟨htidy', hstep⟩ := connectEstablished_advances htidy hpc added
    exact ⟨htidy', hother rfl ▸ hstep⟩
  | connectDestroyed =>
    obtain ⟨htidy', hstep⟩ := connectDestroyed_advances htidy hpc
    exact ⟨htidy', hother rfl ▸ hstep⟩

/-- The functors that were queued are taken out of the queue in their order. -/
theorem doPendingFunctors_advances (h : run.Tidy) (hpc : run.pc = .ready)
    (hfunctors : run.functors = []) :
  Advances run { run with functors := run.pendingFunctors, pendingFunctors := [] }
  := by
  have hqueued : { run with
      functors := run.pendingFunctors, pendingFunctors := [] }.queued = run.queued := by
    simp only [queued, hfunctors, List.append_nil, List.nil_append]
  constructor
  · apply h.toReady hqueued rfl hpc
  · have hsame : { run with
        functors := run.pendingFunctors, pendingFunctors := [] }.outbox = run.outbox := by
      simp only [outbox, waiting, hqueued]
    rw [hsame]
    exact .skip

theorem resume_advances (h : run.Tidy) (hpc : run.pc = .ready) (callers : List Caller)
    (answer : Bool) (caller : Caller) :
  Advances run ({ run with callers }.resume answer caller)
  := by
  have htidy : Tidy { run with callers } := h.toReady rfl rfl hpc
  cases caller with
  | handleEvent events =>
    have hwaiting : run.pc.waiting = [] := by rw [hpc]; rfl
    obtain ⟨htidy', hstep⟩ := (resumeEvent_ends _ events answer).advances htidy hwaiting
    exact ⟨htidy', hstep⟩
  | _ => exact ⟨htidy, .skip⟩

theorem refreshPeerActivity_advances (h : run.Tidy) (hpc : run.pc = .ready) (now : Int) :
  Advances run { run with connection := run.connection.refreshPeerActivity now }
  := by
  refine ⟨h.toReady rfl rfl hpc, ?_⟩
  have hsame : SameOutbound run.connection (run.connection.refreshPeerActivity now) := by
    rw [Connection.refreshPeerActivity]
    split <;> exact ⟨rfl, rfl, rfl, rfl⟩
  rw [hsame.outbox]
  exact .skip

/-- A functor that comes from no send is queued. -/
theorem queueInLoop_advances (h : run.Tidy) {functor : Functor} (hsend : functor.send = none) :
  Advances run { run with pendingFunctors := run.pendingFunctors ++ [functor] }
  := by
  have hqueued : { run with
      pendingFunctors := run.pendingFunctors ++ [functor] }.queued = run.queued := by
    simp [queued, hsend]
  constructor
  · refine { h with queued := ?_ }
    rw [hqueued]
    apply h.queued
  · have hsame : { run with
        pendingFunctors := run.pendingFunctors ++ [functor] }.outbox = run.outbox := by
      simp only [outbox, waiting, hqueued]
    rw [hsame]
    exact .skip

/-- A connection on its loop refines an outbox. -/
theorem step_advances {label : Label} (h : run.Tidy) (hstep : run.Step label run') :
  Advances run run'
  := by
  cases label with
  | event events reads =>
    obtain ⟨⟨hpc, -⟩, -, hevent⟩ := hstep
    apply handleEvent_advances h hpc hevent
  | doPendingFunctors =>
    obtain ⟨⟨hpc, -⟩, hfunctors, rfl⟩ := hstep
    apply doPendingFunctors_advances h hpc hfunctors
  | functor now added =>
    obtain ⟨⟨hpc, -⟩, functor, functors, hfunctors, rfl⟩ := hstep
    apply runFunctor_advances h hpc hfunctors now added
  | sendInLoop =>
    obtain ⟨send, hpc, rfl⟩ := hstep
    apply sendInLoop_advances h hpc
  | writeToSocket outcome =>
    obtain ⟨events, hpc, rfl⟩ := hstep
    apply writeToSocket_advances h hpc outcome
  | updateFd success =>
    obtain ⟨hpc, rfl⟩ := hstep
    apply updateFd_advances h hpc success
  | sent =>
    obtain ⟨hpc, send, callers, -, rfl⟩ := hstep
    exact ⟨h.toReady rfl rfl hpc, .answer send⟩
  | enter =>
    obtain ⟨⟨hpc, -⟩, rfl⟩ := hstep
    exact ⟨h.toReady rfl rfl hpc, .skip⟩
  | resume answer =>
    obtain ⟨hpc, caller, callers, -, -, rfl⟩ := hstep
    apply resume_advances h hpc callers answer caller
  | send data =>
    obtain ⟨⟨hpc, -⟩, rfl⟩ := hstep
    apply send_advances h hpc data
  | reserve spurious verdict =>
    obtain ⟨send, reservation, connection, hpc, hreserve, rfl⟩ := hstep
    apply reserve_advances h hpc hreserve
  | requestClose =>
    obtain ⟨⟨hpc, -⟩, rfl⟩ := hstep
    apply handleClose_advances h (by rw [hpc]; rfl)
  | connectEstablished added =>
    obtain ⟨⟨hpc, -⟩, rfl⟩ := hstep
    apply connectEstablished_advances h hpc added
  | connectDestroyed =>
    obtain ⟨⟨hpc, -⟩, rfl⟩ := hstep
    apply connectDestroyed_advances h hpc
  | refreshPeerActivity now =>
    obtain ⟨⟨hpc, -⟩, rfl⟩ := hstep
    apply refreshPeerActivity_advances h hpc now
  | setReadBuffer buffer =>
    obtain ⟨⟨hpc, -⟩, rfl⟩ := hstep
    exact ⟨h.toReady rfl rfl hpc, .skip⟩
  | sendOther id data =>
    obtain ⟨hid, rfl⟩ := hstep
    split
    · exact ⟨{ h with }, .reject _ rfl⟩
    · apply sendOther_advances h data hid
  | reserveOther send spurious verdict =>
    obtain ⟨l, r, reservation, connection, hcalls, hreserve, rfl⟩ := hstep
    apply reserveOther_advances h hcalls hreserve
  | queueSend send =>
    obtain ⟨l, r, hcalls, rfl⟩ := hstep
    apply queueSend_advances h hcalls
  | queueInLoop functor =>
    obtain ⟨hsend, rfl⟩ := hstep
    apply queueInLoop_advances h hsend

/-! ### Runs -/

theorem inv_of_fresh (h : run.Fresh) :
  run.Tidy ∧ run.outbox.Initial
  := by
  obtain ⟨now, result, rfl⟩ := h
  constructor
  · refine ⟨?_, ?_, .nil, ?_, ?_, ?_⟩
    · rintro s ⟨⟩
    · rintro ⟨⟩
    · rintro events ⟨⟩
    · rintro s cur ⟨⟩
    · rintro call ⟨⟩
  · simp only [Outbox.Initial, outbox, waiting, queued, Connection.new, Buffer.content_new]
    rfl

/-- A connection on its loop refines an outbox in every run. -/
theorem refines_of_reachable (h : system.Reachable run) :
  run.Tidy ∧ (Outbox.system Thread UInt8 writeHardLimit).Reachable run.outbox
  := by
  apply h.invariant
  · intro run hrun
    obtain ⟨htidy, hinitial⟩ := inv_of_fresh hrun
    exact ⟨htidy, .initial hinitial⟩
  · intro run label run' ⟨htidy, hreachable⟩ _ hstep
    obtain ⟨htidy', hstep'⟩ := step_advances htidy hstep
    exact ⟨htidy', hreachable.step (ℓ := ()) trivial hstep'⟩

theorem leads_outbox (h : run.Tidy) (hleads : system.Leads run run') :
  (Outbox.system Thread UInt8 writeHardLimit).Leads run.outbox run'.outbox
  := by
  suffices run'.Tidy ∧ (Outbox.system _ _ writeHardLimit).Leads run.outbox run'.outbox from this.2
  apply hleads.preserves (I := fun later =>
    later.Tidy ∧ (Outbox.system _ _ writeHardLimit).Leads run.outbox later.outbox)
  · intro later label later' ⟨htidy, hlater⟩ hstep
    obtain ⟨htidy', hstep'⟩ := step_advances htidy hstep
    exact ⟨htidy', hlater.step (ℓ := ()) hstep'⟩
  · exact ⟨h, .refl⟩

theorem inv_of_reachable (h : system.Reachable run) :
  Outbox.Inv writeHardLimit run.outbox
  := Outbox.inv_of_reachable (refines_of_reachable h).2

/-- The connection has left the connected state. -/
def Left (run : IoRun) : Prop :=
  run.connection.state = .disconnecting ∨ run.connection.state = .disconnected

theorem phase_of_left (h : run.Left) : run.outbox.phase = .closed := by
  change run.connection.state.phase = .closed
  rcases h with h | h <;> rw [h] <;> rfl

theorem left_of_phase (h : run.outbox.phase = .closed) : run.Left := by
  change run.connection.state.phase = .closed at h
  rw [Left]
  cases hstate : run.connection.state with
  | disconnecting => exact .inl rfl
  | disconnected => exact .inr rfl
  | _ =>
    rw [hstate] at h
    cases h

/-- In every run the bytes the socket took are a prefix of the sends that ran, in their order.
No send ran twice, none that returned false ran, and the sends of a thread ran in its order.
Nothing more runs or is written once the connection has left the connected state.  So a peer
that reads the bytes as frames sees whole frames in their order, and at most the beginning of
one more. -/
theorem stream_of_reachable (h : system.Reachable run) :
  run.socket <+: run.ran.flatMap Message.data
    ∧ run.ran.Nodup
    ∧ (∀ s, (s, false) ∈ run.returned → s ∉ run.ran)
    ∧ run.ran.Pairwise Message.Before
    ∧ (run.Left → ∀ later, system.Leads run later →
      later.Left ∧ later.socket = run.socket ∧ later.ran = run.ran)
    ∧ ∀ frames : List Frame, (∀ f ∈ frames, Codec.Fits f) →
      run.ran.map Message.data = frames.map Codec.frameBytes →
      ∃ k, (Codec.readFrames run.socket).frames = frames.take k
        ∧ (Codec.readFrames run.socket).good = true
        ∧ ((Codec.readFrames run.socket).rest = []
          ∨ ∃ f, frames[k]? = some f
            ∧ (Codec.readFrames run.socket).rest <+: Codec.frameBytes f
            ∧ (Codec.readFrames run.socket).rest ≠ Codec.frameBytes f)
  := by
  have hinv := inv_of_reachable h
  refine ⟨hinv.sent_prefix, hinv.nodup, ?_, ?_, ?_, ?_⟩
  · intro s hs hran
    apply (hinv.orderly.refused s hs).2 (List.mem_append_left _ hran)
  · apply (List.pairwise_append.mp hinv.orderly.ordered).1
  · intro hleft later hleads
    obtain ⟨hphase, hsent, haccepted⟩ := Outbox.closed_of_leads (phase_of_left hleft)
      (leads_outbox (refines_of_reachable h).1 hleads)
    exact ⟨left_of_phase hphase, hsent, haccepted⟩
  · intro frames hfits hdata
    apply Codec.readFrames_of_prefix hfits
    rw [List.flatMap_def, ← hdata, ← List.flatMap_def]
    apply hinv.sent_prefix

/-- A connection before anything happens. -/
def fresh : IoRun := ⟨.new 0, 0, .ready, [], [], [], [], false, [], [], 0, []⟩

def connected : IoRun :=
  { fresh with connection := (Connection.new 0).establish, interest := readEvents }

def frame : Send := ⟨.other 1, 0, [0, 0, 0, 2, 0, 1]⟩

def sending : IoRun :=
  { connected with
    connection := { connected.connection with pendingWriteBytes := 6 }
    pendingFunctors := [.sendInLoop frame], made := 1, returned := [(frame, true)] }

/-- Another thread has sent six bytes, and four of them were written. -/
def written : IoRun :=
  { sending with pendingFunctors := [], pc := .sendInLoop frame }.sendInLoop frame
    |>.writeToSocket none (.written 4)

theorem connected_reachable :
  system.Reachable connected
  := by
  have hfresh : system.Reachable fresh := .initial ⟨0, false, rfl⟩
  have hqueue := hfresh.step (ℓ := Label.queueInLoop .connectEstablished) trivial ⟨rfl, rfl⟩
  have hswap := hqueue.step (ℓ := Label.doPendingFunctors) trivial ⟨⟨rfl, rfl⟩, rfl, rfl⟩
  apply hswap.step (ℓ := Label.functor 0 true) trivial ⟨⟨rfl, rfl⟩, _, _, rfl, rfl⟩

theorem sending_reachable :
  system.Reachable sending
  := by
  have hcall := connected_reachable.step (ℓ := Label.sendOther 1 [0, 0, 0, 2, 0, 1]) trivial
    ⟨by rintro call ⟨⟩, rfl⟩
  have hload := hcall.step (ℓ := Label.reserveOther frame false (.retry 0)) trivial
    ⟨[], [], .load, _, rfl, rfl, rfl⟩
  have hexchange := hload.step (ℓ := Label.reserveOther frame false .granted) trivial
    ⟨[], [], .exchange 0, _, rfl, rfl, rfl⟩
  apply hexchange.step (ℓ := Label.queueSend frame) trivial ⟨[], [], rfl, rfl⟩

theorem written_reachable :
  system.Reachable written
  := by
  have hswap := sending_reachable.step (ℓ := Label.doPendingFunctors) trivial
    ⟨⟨rfl, rfl⟩, rfl, rfl⟩
  have hfunctor := hswap.step (ℓ := Label.functor 0 true) trivial ⟨⟨rfl, rfl⟩, _, _, rfl, rfl⟩
  have hsend := hfunctor.step (ℓ := Label.sendInLoop) trivial ⟨frame, rfl, rfl⟩
  apply hsend.step (ℓ := Label.writeToSocket (.written 4)) trivial ⟨none, rfl, rfl⟩

theorem written_stream :
  written.socket = [0, 0, 0, 2] ∧ written.socket <+: written.ran.flatMap Message.data
  := ⟨by decide +kernel, (stream_of_reachable written_reachable).1⟩

/-- The sends that are reserved and have not run. -/
def reserved (run : IoRun) : List Send :=
  run.waiting.filterMap fun x => if x.2 then some x.1 else none

theorem granted_waiting (run : IoRun) :
  Outbox.granted run.waiting = (run.reserved.map fun s => s.data.length).sum
  := by
  rw [reserved]
  induction run.waiting with
  | nil => rfl
  | cons x line ih =>
    obtain ⟨s, granted⟩ := x
    rw [Outbox.granted_cons, ih]
    cases granted <;> simp

/-- The steps of a call of `send` up to the one that takes out the room for it. -/
def Label.Asks : Label → Prop
  | .send _ | .sendOther _ _ => True
  | .reserve _ verdict | .reserveOther _ _ verdict => verdict ≠ .granted
  | _ => False

theorem reserveWriteBytes_of_not_granted {connection connection' : Connection} {len : Nat}
    {spurious : Bool} {reservation : Reservation} {verdict : Attempt}
    (h : connection.reserveWriteBytes len spurious reservation = (verdict, connection'))
    (hverdict : verdict ≠ .granted) :
  connection' = connection
  := by
  cases reservation with
  | load =>
    rw [reserveWriteBytes] at h
    split at h <;> cases h <;> rfl
  | exchange cur =>
    rw [reserveWriteBytes] at h
    split at h
    · cases h
      exact absurd rfl hverdict
    · cases h
      rfl

/-- A call that has not taken out its room has changed nothing but where it is itself. -/
theorem asks_unchanged {label : Label} (hstep : run.Step label run') (hlabel : label.Asks) :
  run' = { run with
    pc := run'.pc, calls := run'.calls, result := run'.result, made := run'.made
    returned := run'.returned }
  := by
  cases label with
  | send data =>
    obtain ⟨-, rfl⟩ := hstep
    rw [IoRun.send]
    split <;> rfl
  | sendOther id data =>
    obtain ⟨-, rfl⟩ := hstep
    split <;> rfl
  | reserve spurious verdict =>
    obtain ⟨send, reservation, connection, -, hreserve, rfl⟩ := hstep
    cases reserveWriteBytes_of_not_granted hreserve hlabel
    cases verdict with
    | granted => exact absurd rfl hlabel
    | _ => rfl
  | reserveOther send spurious verdict =>
    obtain ⟨l, r, reservation, connection, -, hreserve, rfl⟩ := hstep
    cases reserveWriteBytes_of_not_granted hreserve hlabel
    cases verdict with
    | granted => exact absurd rfl hlabel
    | _ => rfl
  | _ => cases hlabel

/-- In every run the write debt is what the write buffer and the reserved sends that have not
run hold.  It is within the limit, more is never released than owed, a call that is refused
changes nothing, and nothing is owed once the connection has left the connected state and no
reserved send is left. -/
theorem debt_of_reachable (h : system.Reachable run) :
  run.connection.pendingWriteBytes = run.connection.writeBuffer.readableBytes
      + (run.reserved.map fun s => s.data.length).sum
    ∧ run.connection.pendingWriteBytes ≤ writeHardLimit
    ∧ run.connection.overReleased = false
    ∧ (∀ label run', run.Step label run' → label.Asks →
      run' = { run with
        pc := run'.pc, calls := run'.calls, result := run'.result, made := run'.made
        returned := run'.returned })
    ∧ (run.Left → run.reserved = [] → run.connection.pendingWriteBytes = 0)
  := by
  have hinv := inv_of_reachable h
  have hdebt : run.connection.pendingWriteBytes = run.connection.writeBuffer.readableBytes
      + (run.reserved.map fun s => s.data.length).sum := by
    rw [← granted_waiting, ← Buffer.length_content]
    apply hinv.debt_eq
  refine ⟨hdebt, hinv.debt_le, hinv.sound, ?_, ?_⟩
  · intro label run' hstep hlabel
    apply asks_unchanged hstep hlabel
  · intro hleft hreserved
    have hbuffer : run.connection.writeBuffer.content = [] := by
      apply hinv.buffer_eq
      rw [phase_of_left hleft]
      decide
    rw [hdebt, hreserved, ← Buffer.length_content, hbuffer]
    rfl

theorem written_debt :
  written.connection.pendingWriteBytes = 2
    ∧ written.connection.pendingWriteBytes ≤ writeHardLimit
  := ⟨by decide +kernel, (debt_of_reachable written_reachable).2.1⟩

end IoRun

end RoomServer
