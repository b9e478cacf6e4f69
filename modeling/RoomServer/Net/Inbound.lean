import RoomServer.Net.Closing
import RoomServer.Net.Codec

/-!
# What a connection reads

The bytes that are read from a socket go through the read buffer of the connection and leave it
only in its message callback.  Here are the steps that are not those of the callback: none of
them takes from the buffer, and only an event adds to it.  The loop is never back at its wait
with a whole frame in the buffer of a connection that is still open.

The sends of the thread of the loop come one after the other, so that what they return comes in
their order.
-/

namespace RoomServer

namespace IoRun

open Connection (ReadOutcome Attempt Reservation)

variable {run run' : IoRun}

/-! ### The bytes that are read -/

/-- The bytes that the reads of a call of `readFromSocket` bring. -/
def received : List ReadOutcome → Bytes
  | [] => []
  | .received data :: outcomes => if data = [] then [] else data ++ received outcomes
  | .interrupted :: outcomes => received outcomes
  | .wouldBlock :: _ => []
  | .failed :: _ => []

theorem content_readFromSocket {connection connection' : Connection} {reads : List ReadOutcome}
    {success : Bool} (h : connection.readFromSocket reads = some (success, connection')) :
  connection'.readBuffer.content = connection.readBuffer.content ++ received reads
  := by
  induction reads generalizing connection with
  | nil => cases h
  | cons read reads ih =>
    cases read with
    | received data =>
      rw [Connection.readFromSocket] at h
      rw [received]
      split at h
      · next hempty =>
        cases h
        rw [if_pos hempty, List.append_nil]
      · next hempty =>
        rw [if_neg hempty, ih h, Buffer.content_append, List.append_assoc]
    | interrupted => apply ih h
    | wouldBlock =>
      cases h
      rw [received, List.append_nil]
    | failed =>
      cases h
      rw [received, List.append_nil]

/-- The bytes an event reads: none unless the connection is connected and there is something
to read. -/
def eventReceived (run : IoRun) : Label → Bytes
  | .event events reads =>
    if run.connection.state = .connected
        ∧ events &&& (Connection.epollIn ||| Connection.epollRdhup) ≠ 0 then
      received reads
    else
      []
  | _ => []

/-! ### The sends of the loop -/

/-- The send a caller waits for. -/
def Caller.waitsFor : Caller → Option Send
  | .send s => some s
  | _ => none

/-- The send that reserves its room. -/
def Pc.reserving : Pc → List Send
  | .reserve s _ => [s]
  | _ => []

/-- The sends of the thread of the loop that have not returned. -/
def inProgress (run : IoRun) : List Send :=
  (run.callers.filterMap Caller.waitsFor).reverse ++ run.pc.reserving

/-- The sends of the thread of the loop, in the order in which they were called. -/
def ownSends (run : IoRun) : List Send :=
  (run.returned.map Prod.fst).filter (·.sender = .loop) ++ run.inProgress

/-- No call of a callback waits but that of the last event. -/
def EventLast : List Caller → Prop
  | [] => True
  | .handleEvent _ :: callers => callers = []
  | _ :: callers => EventLast callers

/-- An event waits for the message callback. -/
def InEvent (run : IoRun) : Prop := ∃ events, .handleEvent events ∈ run.callers

/-- The sends of the loop do not overlap, and a connection that is still open has no whole frame
in its buffer, unless its message callback is at work. -/
structure Orderly (run : IoRun) : Prop where
  last : EventLast run.callers
  single : run.inProgress.length ≤ 1
  own : ∀ send ∈ run.inProgress, send.sender = .loop
  settled : ¬run.Left → ¬run.InEvent → Codec.next run.connection.readBuffer = .incomplete

/-- The buffer stays, as do the sends of the loop and the call of the message callback. -/
structure SameInput (run run' : IoRun) : Prop where
  buffer : run'.connection.readBuffer = run.connection.readBuffer
  left : run.Left → run'.Left
  last : EventLast run.callers → EventLast run'.callers
  inEvent : run.InEvent → run'.Left ∨ run'.InEvent
  inProgress : run'.inProgress = run.inProgress
  returned : (run'.returned.map Prod.fst).filter (·.sender = .loop)
    = (run.returned.map Prod.fst).filter (·.sender = .loop)

/-- Nothing is sent in the thread of the loop. -/
theorem orderly_of_idle (hlast : EventLast run.callers) (hprogress : run.inProgress = [])
    (hsettled : ¬run.Left → ¬run.InEvent →
      Codec.next run.connection.readBuffer = .incomplete) :
  run.Orderly
  where
  last := hlast
  single := by
    rw [hprogress]
    apply Nat.zero_le
  own := by
    rw [hprogress]
    rintro s ⟨⟩
  settled := hsettled

theorem SameInput.orderly (h : run.SameInput run') (horderly : run.Orderly) :
  run'.Orderly
  where
  last := h.last horderly.last
  single := h.inProgress ▸ horderly.single
  own := h.inProgress ▸ horderly.own
  settled := by
    intro hleft hevent
    rw [h.buffer]
    apply horderly.settled
    · intro hleft'
      apply hleft (h.left hleft')
    · intro hevent'
      obtain hleft' | hevent' := h.inEvent hevent'
      · apply hleft hleft'
      · apply hevent hevent'

theorem SameInput.trans {run'' : IoRun} (h : run.SameInput run') (h' : run'.SameInput run'') :
  run.SameInput run''
  where
  buffer := h'.buffer.trans h.buffer
  left hleft := h'.left (h.left hleft)
  last hlast := h'.last (h.last hlast)
  inEvent := by
    intro hevent
    obtain hleft | hevent := h.inEvent hevent
    · exact .inl (h'.left hleft)
    · apply h'.inEvent hevent
  inProgress := h'.inProgress.trans h.inProgress
  returned := h'.returned.trans h.returned

theorem SameInput.ownSends (h : run.SameInput run') : run'.ownSends = run.ownSends := by
  rw [IoRun.ownSends, IoRun.ownSends, h.inProgress, h.returned]

/-! ### The functions of the loop -/

/-- A release changes only the account of the debt. -/
theorem releaseWriteBytes_eq (connection : Connection) (len : Nat) :
  connection.releaseWriteBytes len = { connection with
    pendingWriteBytes := (connection.releaseWriteBytes len).pendingWriteBytes
    overReleased := (connection.releaseWriteBytes len).overReleased }
  := by
  rw [Connection.releaseWriteBytes]
  split
  · rfl
  · split <;> rfl

theorem readBuffer_releaseWriteBytes (connection : Connection) (len : Nat) :
  (connection.releaseWriteBytes len).readBuffer = connection.readBuffer
  := by
  rw [releaseWriteBytes_eq]

theorem readBuffer_clearWriteBufferInLoop (connection : Connection) :
  connection.clearWriteBufferInLoop.readBuffer = connection.readBuffer
  := by
  rw [Connection.clearWriteBufferInLoop]
  split
  · rfl
  · apply readBuffer_releaseWriteBytes

/-- Nothing changes but what the input does not depend on. -/
theorem sameInput_of_fields (hbuffer : run'.connection.readBuffer = run.connection.readBuffer)
    (hleft : run.Left → run'.Left) (hcallers : run'.callers = run.callers)
    (hpc : run'.pc.reserving = run.pc.reserving) (hreturned : run'.returned = run.returned) :
  run.SameInput run'
  where
  buffer := hbuffer
  left := hleft
  last := hcallers ▸ id
  inEvent := by
    rw [InEvent, InEvent, hcallers]
    exact .inr
  inProgress := by rw [inProgress, inProgress, hcallers, hpc]
  returned := by rw [hreturned]

theorem sameInput_refl (run : IoRun) : run.SameInput run :=
  sameInput_of_fields rfl id rfl rfl rfl

theorem handleClose_sameInput (hpc : run.pc.reserving = []) :
  run.SameInput run.handleClose
  := by
  have hleft := run.left_handleClose
  obtain ⟨-, hclose⟩ | ⟨-, hclose⟩ := run.handleClose_cases
  · rw [hclose]
    exact sameInput_of_fields rfl id rfl hpc.symm rfl
  · rw [hclose] at hleft ⊢
    constructor
    · apply readBuffer_clearWriteBufferInLoop
    · exact fun _ => hleft
    · exact id
    · exact fun _ => .inl hleft
    · rw [inProgress, inProgress, hpc]
      rfl
    · rfl

theorem connectEstablished_sameInput (hpc : run.pc.reserving = []) (added : Bool) :
  run.SameInput (run.connectEstablished added)
  := by
  obtain hsame | ⟨hstate, -, -, hestablish⟩ | hclose := run.connectEstablished_cases added
  · rw [hsame]
    apply run.sameInput_refl
  · rw [hestablish]
    refine sameInput_of_fields rfl ?_ rfl rfl rfl
    rintro (hleft | hleft) <;> simp [hleft] at hstate
  · rw [hclose]
    apply handleClose_sameInput hpc

theorem Ends.sameInput (h : run.Ends run') (hpc : run.pc.reserving = []) :
  run.SameInput run'
  := by
  cases h with
  | stay => apply run.sameInput_refl
  | close => apply handleClose_sameInput hpc
  | _ => exact sameInput_of_fields rfl id rfl hpc.symm rfl

theorem sendInLoop_sameInput (hpc : run.pc.reserving = []) (s : Send) :
  run.SameInput (run.sendInLoop s)
  := by
  rw [sendInLoop]
  split
  · refine sameInput_of_fields (readBuffer_releaseWriteBytes _ _) ?_ rfl hpc.symm rfl
    intro hleft
    rw [Left, Connection.state_releaseWriteBytes]
    exact hleft
  · exact sameInput_of_fields rfl id rfl hpc.symm rfl

theorem writeToSocket_sameInput {events : Option UInt32} (hpc : run.pc = .writeToSocket events)
    (outcome : Connection.WriteOutcome) :
  run.SameInput (run.writeToSocket events outcome)
  := by
  obtain hends | hsame | ⟨k, -, heq⟩ := writeToSocket_cases hpc outcome
  · apply hends.sameInput
    rw [hpc]
    rfl
  · rw [hsame]
    apply run.sameInput_refl
  · rw [heq]
    refine sameInput_of_fields (readBuffer_releaseWriteBytes _ _) ?_ rfl rfl rfl
    intro hleft
    rw [Left, Connection.state_releaseWriteBytes]
    exact hleft

theorem connectDestroyed_sameInput (run : IoRun) :
  run.SameInput { run with connection := run.connection.connectDestroyed }
  := by
  rw [Connection.connectDestroyed]
  split
  · exact sameInput_of_fields rfl id rfl rfl rfl
  · refine sameInput_of_fields (readBuffer_clearWriteBufferInLoop _) ?_ rfl rfl rfl
    intro _
    exact .inr rfl

theorem runFunctor_sameInput (hpc : run.pc.reserving = []) (now : Int) (added : Bool)
    (functor : Functor) :
  run.SameInput (run.runFunctor now added functor)
  := by
  cases functor with
  | sendInLoop s => exact sameInput_of_fields rfl id rfl hpc.symm rfl
  | handleClose => apply handleClose_sameInput hpc
  | checkTimeoutInLoop timeout =>
    obtain hclose | hsame := run.checkTimeoutInLoop_cases now timeout
    · rw [runFunctor, hclose]
      apply handleClose_sameInput hpc
    · rw [runFunctor, hsame]
      apply run.sameInput_refl
  | connectEstablished => apply connectEstablished_sameInput hpc
  | connectDestroyed => apply connectDestroyed_sameInput

/-- A reservation changes only the counter. -/
theorem reserveWriteBytes_eq {connection connection' : Connection} {len : Nat}
    {spurious : Bool} {reservation : Reservation} {verdict : Attempt}
    (h : connection.reserveWriteBytes len spurious reservation = (verdict, connection')) :
  connection' = { connection with pendingWriteBytes := connection'.pendingWriteBytes }
  := by
  rw [Connection.reserveWriteBytes.eq_def] at h
  split at h
  · split at h <;> cases h <;> rfl
  · split at h <;> cases h <;> rfl

/-- What an event or a step of the loop makes of the input: the buffer has taken what was read,
and the sends go on in their order. -/
structure Follows (run run' : IoRun) (data : Bytes) : Prop where
  orderly : run'.Orderly
  content : run'.connection.readBuffer.content = run.connection.readBuffer.content ++ data
  ownSends : run'.ownSends = run.ownSends

theorem SameInput.follows (h : run.SameInput run') (horderly : run.Orderly) :
  run.Follows run' []
  where
  orderly := h.orderly horderly
  content := by rw [h.buffer, List.append_nil]
  ownSends := h.ownSends

/-- An event that reads leaves the buffer to the message callback, or closes the connection. -/
theorem handleEvent_follows (h : run.Orderly) (hloop : run.AtLoop) {events : UInt32}
    {reads : List ReadOutcome} (hevent : run.handleEvent events reads = some run') :
  run.Follows run' (run.eventReceived (.event events reads))
  := by
  obtain ⟨hpc, hcallers⟩ := hloop
  have hreserving : run.pc.reserving = [] := by rw [hpc]; rfl
  rw [eventReceived]
  obtain ⟨hreads, hends⟩ | ⟨hreads, success, connection, hread, rfl⟩ := handleEvent_cases hevent
  · rw [if_neg (show ¬(_ ∧ _) from hreads)]
    apply (hends.sameInput hreserving).follows h
  rw [if_pos (show _ ∧ _ from hreads)]
  have hprogress : IoRun.inProgress { run with connection } = [] := by
    rw [inProgress, hcallers, hreserving]
    rfl
  cases success with
  | false =>
    have hsame := @handleClose_sameInput { run with connection } hreserving
    constructor
    · apply orderly_of_idle _ (hsame.inProgress.trans hprogress)
      · exact fun hopen _ => absurd (left_handleClose _) hopen
      · apply hsame.last
        rw [hcallers]
        trivial
    · exact (congrArg Buffer.content hsame.buffer).trans (content_readFromSocket hread)
    · exact hsame.ownSends
  | true =>
    constructor
    · refine orderly_of_idle hcallers ?_ fun _ hout => absurd ⟨events, List.mem_cons_self⟩ hout
      exact hprogress
    · apply content_readFromSocket hread
    · rfl

/-- A reservation of the loop goes on, is refused, or is granted. -/
theorem reserve_follows (h : run.Orderly) {s : Send} {reservation : Reservation}
    (hpc : run.pc = .reserve s reservation) {connection : Connection} {spurious : Bool}
    {verdict : Attempt}
    (hreserve : run.connection.reserveWriteBytes s.data.length spurious reservation
      = (verdict, connection)) :
  run.Follows (run.reserve s connection verdict) []
  := by
  have hbuffer := congrArg Connection.readBuffer (reserveWriteBytes_eq hreserve)
  have hstate := congrArg Connection.state (reserveWriteBytes_eq hreserve)
  have hprogress : run.inProgress = (run.callers.filterMap Caller.waitsFor).reverse ++ [s] := by
    rw [inProgress, hpc]
    rfl
  have hnone : run.callers.filterMap Caller.waitsFor = [] := by
    have hsingle := h.single
    rw [hprogress, List.length_append, List.length_reverse, List.length_singleton] at hsingle
    apply List.eq_nil_of_length_eq_zero
    omega
  rw [hnone, List.reverse_nil, List.nil_append] at hprogress
  have hown := h.own
  rw [hprogress] at hown
  have hsettled : ∀ {run' : IoRun}, run'.connection = connection → (run'.InEvent ↔ run.InEvent) →
      ¬run'.Left → ¬run'.InEvent → Codec.next run'.connection.readBuffer = .incomplete := by
    intro run' hconnection hevent hleft hout
    rw [hconnection, hbuffer]
    apply h.settled
    · rw [Left, hconnection, hstate] at hleft
      exact hleft
    · rwa [hevent] at hout
  cases verdict with
  | retry cur =>
    constructor
    · constructor
      · exact h.last
      · rw [inProgress, IoRun.reserve, hnone]
        exact Nat.le_refl 1
      · rw [inProgress, IoRun.reserve, hnone]
        exact hown
      · exact hsettled rfl Iff.rfl
    · rw [List.append_nil]
      exact congrArg Buffer.content hbuffer
    · rw [ownSends, ownSends, hprogress, inProgress, IoRun.reserve, hnone]
      rfl
  | refused =>
    constructor
    · refine orderly_of_idle h.last ?_ (hsettled rfl Iff.rfl)
      rw [inProgress, IoRun.reserve, hnone]
      rfl
    · rw [List.append_nil]
      exact congrArg Buffer.content hbuffer
    · rw [ownSends, ownSends, hprogress, inProgress, IoRun.reserve, hnone]
      simp [Pc.reserving, hown s List.mem_cons_self]
  | granted =>
    constructor
    · constructor
      · exact h.last
      · rw [inProgress, IoRun.reserve, List.filterMap_cons, hnone]
        exact Nat.le_refl 1
      · rw [inProgress, IoRun.reserve, List.filterMap_cons, hnone]
        exact hown
      · apply hsettled rfl
        simp [InEvent, IoRun.reserve]
    · rw [List.append_nil]
      exact congrArg Buffer.content hbuffer
    · rw [ownSends, ownSends, hprogress, inProgress, IoRun.reserve, List.filterMap_cons, hnone]
      rfl

/-- A send of the loop returns when it is the one in progress. -/
theorem sent_follows (h : run.Orderly) {s : Send} {callers : List Caller}
    (hpc : run.pc = .ready) (hcallers : run.callers = .send s :: callers) :
  run.Follows { run with
    callers, returned := run.returned ++ [(s, true)], result := true } []
  := by
  have hprogress : run.inProgress = (callers.filterMap Caller.waitsFor).reverse ++ [s] := by
    rw [inProgress, hcallers, hpc, List.filterMap_cons]
    simp [Caller.waitsFor, Pc.reserving]
  have hnone : callers.filterMap Caller.waitsFor = [] := by
    have hsingle := h.single
    rw [hprogress, List.length_append, List.length_reverse, List.length_singleton] at hsingle
    apply List.eq_nil_of_length_eq_zero
    omega
  rw [hnone, List.reverse_nil, List.nil_append] at hprogress
  have hown := h.own
  rw [hprogress] at hown
  have hnone' : IoRun.inProgress { run with
      callers, returned := run.returned ++ [(s, true)], result := true } = [] := by
    rw [inProgress, hnone, hpc]
    rfl
  constructor
  · apply orderly_of_idle _ hnone'
    · intro hleft hout
      apply h.settled hleft
      rintro ⟨events, hevent⟩
      rw [hcallers] at hevent
      obtain heq | hevent := List.mem_cons.mp hevent
      · cases heq
      · apply hout ⟨events, hevent⟩
    · have hlast := h.last
      rw [hcallers] at hlast
      exact hlast
  · rw [List.append_nil]
  · rw [ownSends, ownSends, hprogress, hnone']
    simp [hown s List.mem_cons_self]

/-- What only other threads do changes nothing here. -/
theorem others_follow (h : run.Orderly)
    (hbuffer : run'.connection.readBuffer = run.connection.readBuffer)
    (hstate : run'.connection.state = run.connection.state)
    (hcallers : run'.callers = run.callers) (hpc : run'.pc = run.pc)
    (hreturned : run'.returned = run.returned
      ∨ ∃ s accepted, s.sender ≠ .loop ∧ run'.returned = run.returned ++ [(s, accepted)]) :
  run.Follows run' []
  := by
  have hsame : run.SameInput run' := by
    constructor
    · exact hbuffer
    · intro hleft
      rw [Left, hstate]
      exact hleft
    · exact hcallers ▸ id
    · rw [InEvent, InEvent, hcallers]
      exact .inr
    · rw [inProgress, inProgress, hcallers, hpc]
    · obtain heq | ⟨s, accepted, hs, heq⟩ := hreturned
      · rw [heq]
      · rw [heq]
        simp [hs]
  apply hsame.follows h

/-- The steps that are not those of the code of others in the thread of the loop. -/
def Label.Outside : Label → Prop
  | .enter | .resume _ | .send _ | .requestClose | .connectEstablished _ | .connectDestroyed
  | .refreshPeerActivity _ | .setReadBuffer _ => False
  | _ => True

/-- A step outside the callbacks leaves the buffer to them, except that an event adds what it
reads. -/
theorem step_follows {label : Label} (h : run.Orderly) (htidy : run.Tidy)
    (hlabel : label.Outside) (hstep : run.Step label run') :
  run.Follows run' (run.eventReceived label)
  := by
  cases label with
  | event events reads =>
    obtain ⟨hloop, -, hevent⟩ := hstep
    apply handleEvent_follows h hloop hevent
  | doPendingFunctors =>
    obtain ⟨-, -, rfl⟩ := hstep
    have hsame :
        run.SameInput { run with functors := run.pendingFunctors, pendingFunctors := [] } :=
      sameInput_of_fields rfl id rfl rfl rfl
    apply hsame.follows h
  | functor now added =>
    obtain ⟨⟨hpc, -⟩, functor, functors, -, rfl⟩ := hstep
    have hsame : run.SameInput { run with functors } := sameInput_of_fields rfl id rfl rfl rfl
    have hpc' : IoRun.pc { run with functors } = .ready := hpc
    have hrun := runFunctor_sameInput (by rw [hpc']; rfl) now added functor
    apply (hsame.trans hrun).follows h
  | sendInLoop =>
    obtain ⟨s, hpc, rfl⟩ := hstep
    apply (sendInLoop_sameInput (by rw [hpc]; rfl) s).follows h
  | writeToSocket outcome =>
    obtain ⟨events, hpc, rfl⟩ := hstep
    apply (writeToSocket_sameInput hpc outcome).follows h
  | updateFd success =>
    obtain ⟨hpc, rfl⟩ := hstep
    have hreserving : run.pc.reserving = [] := by rw [hpc]; rfl
    have hsame : run.SameInput (run.updateFd success) := by
      rw [updateFd]
      split
      · exact sameInput_of_fields rfl id rfl hreserving.symm rfl
      · apply handleClose_sameInput hreserving
    apply hsame.follows h
  | sent =>
    obtain ⟨hpc, s, callers, hcallers, rfl⟩ := hstep
    apply sent_follows h hpc hcallers
  | reserve spurious verdict =>
    obtain ⟨s, reservation, connection, hpc, hreserve, rfl⟩ := hstep
    apply reserve_follows h hpc hreserve
  | sendOther id data =>
    obtain ⟨-, rfl⟩ := hstep
    split
    · exact others_follow h rfl rfl rfl rfl (.inr ⟨_, false, by simp, rfl⟩)
    · exact others_follow h rfl rfl rfl rfl (.inl rfl)
  | reserveOther s spurious verdict =>
    obtain ⟨l, r, reservation, connection, hcalls, hreserve, rfl⟩ := hstep
    have hbuffer := congrArg Connection.readBuffer (reserveWriteBytes_eq hreserve)
    have hstate := congrArg Connection.state (reserveWriteBytes_eq hreserve)
    have hother : s.sender ≠ .loop := by
      intro heq
      apply htidy.others
      rw [senders, hcalls]
      simp [heq]
    cases verdict with
    | retry cur => exact others_follow h hbuffer hstate rfl rfl (.inl rfl)
    | refused => exact others_follow h hbuffer hstate rfl rfl (.inr ⟨s, false, hother, rfl⟩)
    | granted => exact others_follow h hbuffer hstate rfl rfl (.inl rfl)
  | queueSend s =>
    obtain ⟨l, r, hcalls, rfl⟩ := hstep
    have hother : s.sender ≠ .loop := by
      intro heq
      apply htidy.others
      rw [senders, hcalls]
      simp [heq]
    exact others_follow h rfl rfl rfl rfl (.inr ⟨s, true, hother, rfl⟩)
  | queueInLoop functor =>
    obtain ⟨-, rfl⟩ := hstep
    exact others_follow h rfl rfl rfl rfl (.inl rfl)
  | _ => cases hlabel

/-! ### The message callback -/

/-- The message callback answers an event; when it lets the event go on, it leaves no whole frame
in the buffer of a connection that is still open. -/
theorem resumeEvent_follows (hpc : run.pc = .ready) {events : UInt32}
    (hcallers : run.callers = [.handleEvent events]) {answer : Bool}
    (hnext : answer = true → ¬run.Left →
      Codec.next run.connection.readBuffer = .incomplete) :
  run.Follows (IoRun.resumeEvent { run with callers := [] } events answer) []
  := by
  have hreserving : run.pc.reserving = [] := by rw [hpc]; rfl
  have hnone : run.inProgress = [] := by rw [inProgress, hcallers, hreserving]; rfl
  have hnone' : IoRun.inProgress { run with callers := [] } = [] := by
    rw [inProgress, hreserving]
    rfl
  have hown : IoRun.ownSends { run with callers := [] } = run.ownSends := by
    rw [ownSends, ownSends, hnone, hnone']
  have hsame := (resumeEvent_ends { run with callers := [] } events answer).sameInput hreserving
  refine ⟨?_, ?_, hsame.ownSends.trans hown⟩
  · cases answer with
    | false =>
      apply orderly_of_idle (hsame.last trivial) (hsame.inProgress.trans hnone')
      exact fun hopen _ => absurd (left_handleClose _) hopen
    | true =>
      apply hsame.orderly
      exact orderly_of_idle trivial hnone' fun hleft _ => hnext rfl hleft
  · rw [hsame.buffer, List.append_nil]

/-- The message callback works on the connection while its event waits. -/
theorem Orderly.inCallback (h : run.Orderly) (hevent : run.InEvent) (connection : Connection) :
  Orderly { run with connection }
  where
  last := h.last
  single := h.single
  own := h.own
  settled _ hout := absurd hevent hout

/-- The message callback sends, which nothing else in the thread of the loop does. -/
theorem send_ownSends (h : run.Orderly) (hpc : run.pc = .ready) {events : UInt32}
    (hcallers : run.callers = [.handleEvent events]) {data : Bytes} (hdata : data ≠ []) :
  (run.send data).Orderly
    ∧ (run.send data).ownSends = run.ownSends ++ [⟨.loop, run.made, data⟩]
  := by
  have hnone : run.inProgress = [] := by rw [inProgress, hcallers, hpc]; rfl
  have hsend : run.send data = { run with
      made := run.made + 1, pc := .reserve ⟨.loop, run.made, data⟩ .load } := if_neg hdata
  have hone : (run.send data).inProgress = [⟨.loop, run.made, data⟩] := by
    rw [hsend, inProgress, hcallers]
    rfl
  constructor
  · constructor
    · rw [hsend]
      exact h.last
    · rw [hone]
      exact Nat.le_refl 1
    · rw [hone]
      intro s hs
      rw [List.mem_singleton.mp hs]
    · intro _ hout
      rw [hsend] at hout
      refine absurd ⟨events, ?_⟩ hout
      rw [hcallers]
      apply List.mem_cons_self
  · rw [ownSends, ownSends, hone, hnone, hsend, List.append_nil]

/-- A connection that was just made is in order. -/
theorem orderly_of_fresh (h : run.Fresh) : run.Orderly := by
  obtain ⟨now, result, rfl⟩ := h
  refine orderly_of_idle trivial rfl ?_
  intro _ _
  have hshort : (Buffer.new 4096).readableBytes < Codec.lengthFieldSize := by decide
  change Codec.next (Buffer.new 4096) = _
  rw [Codec.next, if_pos hshort]

end IoRun

end RoomServer
