import RoomServer.Game.Room
import RoomServer.Lib.UnorderedMap
import RoomServer.Net.Interest

/-!
# The descriptors of a loop

A loop keeps the callbacks of its connections by their descriptors.  Its epoll has an interest
list, and knows the files: when a file is closed it disappears from the list.

A connection adds its descriptor when it is established, and removes and closes it when it is
destroyed; in between it has the events changed.  No other step concerns its descriptor, and its
state tells how far it is.  Nor does a step change the time of the last activity of the peer,
but for the one that tells it.
-/

namespace RoomServer

namespace Connection

@[simp]
theorem registered_releaseWriteBytes (connection : Connection) (len : Nat) :
  (connection.releaseWriteBytes len).registered = connection.registered
  := by
  rw [releaseWriteBytes]
  split
  · rfl
  · split <;> rfl

@[simp]
theorem registered_clearWriteBufferInLoop (connection : Connection) :
  connection.clearWriteBufferInLoop.registered = connection.registered
  := by
  rw [clearWriteBufferInLoop]
  split
  · rfl
  · apply registered_releaseWriteBytes _ _

@[simp]
theorem activity_releaseWriteBytes (connection : Connection) (len : Nat) :
  (connection.releaseWriteBytes len).lastPeerActivityTime = connection.lastPeerActivityTime
  := by
  rw [releaseWriteBytes]
  split
  · rfl
  · split <;> rfl

@[simp]
theorem activity_clearWriteBufferInLoop (connection : Connection) :
  connection.clearWriteBufferInLoop.lastPeerActivityTime = connection.lastPeerActivityTime
  := by
  rw [clearWriteBufferInLoop]
  split
  · rfl
  · apply activity_releaseWriteBytes _ _

end Connection

open Connection

/-- An event that was reported for the file of a connection. -/
structure Report where
  fd : Nat
  events : UInt32
  owner : ConnId

/-- A loop waits, handles the events of its last wait, or runs its functors. -/
inductive Phase where
  | waiting
  | dispatching
  | functors
  deriving DecidableEq

/-- The descriptors of a loop: their callbacks, the files on the interest list of its epoll, and
the reports of the last wait that are still to be handled. -/
structure FdTable where
  callbacks : UnorderedMap Nat ConnId
  watched : Nat → Option ConnId
  phase : Phase
  reports : List Report

namespace FdTable

def empty : FdTable := ⟨∅, fun _ => none, .waiting, []⟩

/-- `epoll_ctl` refuses to add a file twice, or when the kernel has no room. -/
def addFd (table : FdTable) (fd : Nat) (c : ConnId) (room : Bool) : Bool × FdTable :=
  if fd ∈ table.callbacks then
    (false, table)
  else if (table.watched fd).isSome || !room then
    (false, table)
  else
    (true, { table with
      callbacks := table.callbacks.insert fd c
      watched := Function.update table.watched fd (some c) })

/-- `epoll_ctl` refuses to change the events of a file that is not on the list. -/
def updateFd (table : FdTable) (fd : Nat) : Bool :=
  if fd ∉ table.callbacks then false else (table.watched fd).isSome

/-- `epoll_ctl` refuses to remove a file that is not on the list. -/
def removeFd (table : FdTable) (fd : Nat) : Bool × FdTable :=
  if fd ∉ table.callbacks then
    (false, table)
  else if (table.watched fd).isNone then
    (false, table)
  else
    (true, { table with
      callbacks := table.callbacks.erase fd
      watched := Function.update table.watched fd none })

/-- A connection closes its file, which disappears from the interest list. -/
def forget (table : FdTable) (c : ConnId) : FdTable :=
  { table with watched := fun fd => if table.watched fd = some c then none else table.watched fd }

variable {table : FdTable}

/-- What `addFd` does when it succeeds. -/
theorem addFd_eq_true {fd : Nat} {c : ConnId} {room : Bool}
    (h : (table.addFd fd c room).1 = true) :
  table.callbacks.lookup fd = none ∧ (table.addFd fd c room).2 = { table with
    callbacks := table.callbacks.insert fd c
    watched := Function.update table.watched fd (some c) }
  := by
  rw [addFd] at h ⊢
  split at h
  · cases h
  split at h
  · cases h
  next hmem hfree =>
  rw [if_neg hmem, if_neg hfree]
  exact ⟨AList.lookup_eq_none.mpr hmem, rfl⟩

theorem addFd_eq_false {fd : Nat} {c : ConnId} {room : Bool}
    (h : (table.addFd fd c room).1 = false) :
  (table.addFd fd c room).2 = table
  := by
  rw [addFd] at h ⊢
  split at h
  · next hmem => rw [if_pos hmem]
  · next hmem =>
    rw [if_neg hmem]
    split at h
    · next hfull => rw [if_pos hfull]
    · cases h

/-- What `removeFd` does for a descriptor that is registered. -/
theorem removeFd_eq {fd : Nat} {c : ConnId}
    (hlookup : table.callbacks.lookup fd = some c) (hwatched : table.watched fd = some c) :
  table.removeFd fd = (true, { table with
    callbacks := table.callbacks.erase fd
    watched := Function.update table.watched fd none })
  := by
  have hmem : fd ∈ table.callbacks := AList.mem_iff_lookup.mpr ⟨c, hlookup⟩
  rw [removeFd, if_neg (not_not.mpr hmem), if_neg (by rw [hwatched]; simp)]

/-- Epoll has nothing to forget of a file that it does not watch. -/
theorem forget_eq {c : ConnId} (h : ∀ fd, table.watched fd ≠ some c) :
  table.forget c = table
  := by
  have hwatched : (fun fd => if table.watched fd = some c then none else table.watched fd)
      = table.watched := by
    funext fd
    rw [if_neg (h fd)]
  rw [forget, hwatched]

end FdTable

/-! ### What a connection asks of its loop -/

/-- A connection adds its descriptor, changes its events, or removes and closes it. -/
inductive Request where
  | add (added : Bool)
  | update (success : Bool)
  | destroy

namespace IoRun

variable {run run' run'' : IoRun}

/-- `connectEstablished` gets as far as `addFd`. -/
def requestAdd (run : IoRun) (added : Bool) : Option Request :=
  if run.connection.state ≠ .connecting ∨ run.connection.registered then
    none
  else
    some (.add added)

/-- `connectDestroyed` gets as far as `removeFd` and the end of the file. -/
def requestDestroy (run : IoRun) : Option Request :=
  if run.connection.state = .disconnected then none else some .destroy

def requestFunctor (run : IoRun) (added : Bool) : Functor → Option Request
  | .connectEstablished => run.requestAdd added
  | .connectDestroyed => run.requestDestroy
  | _ => none

/-- What a step asks of the loop. -/
def request (run : IoRun) : Label → Option Request
  | .updateFd success => some (.update success)
  | .connectEstablished added => run.requestAdd added
  | .connectDestroyed => run.requestDestroy
  | .functor _ added => run.functors.head?.bind (run.requestFunctor added)
  | _ => none

/-- Neither the descriptor nor its registration changes; the connection may be closed, and asks
for its events only if it is connected. -/
structure SameFd (run run' : IoRun) : Prop where
  registered : run'.connection.registered = run.connection.registered
  close : run'.connection.close = run.connection.close
  state : run'.connection.state = run.connection.state
    ∨ run'.connection.state = .disconnecting ∧ run.connection.state ≠ .disconnected
  asking : Polled.Asking run'.pc → Polled.Asking run.pc ∨ run.connection.state = .connected

/-- What a connection has of its descriptor is told by its state. -/
structure Holds (run : IoRun) : Prop where
  connecting : run.connection.state = .connecting → run.connection.registered = false
  connected : run.connection.state = .connected → run.connection.registered = true
  registered : run.connection.registered = true → run.connection.close = false
  close : run.connection.close = true → run.connection.state = .disconnected
  asking : Polled.Asking run.pc → run.connection.registered = true

/-- A connection that was not closed is in the state it was in. -/
theorem SameFd.state_eq (h : run.SameFd run') {state : State} (hne : state ≠ .disconnecting)
    (hstate : run'.connection.state = state) :
  run.connection.state = state
  := by
  obtain heq | ⟨heq, -⟩ := h.state
  · rw [← heq, hstate]
  · rw [heq] at hstate
    exact absurd hstate.symm hne

theorem Holds.same (h : run.Holds) (hsame : run.SameFd run') :
  run'.Holds
  := by
  constructor
  · intro hstate
    rw [hsame.registered]
    apply h.connecting (hsame.state_eq (by simp) hstate)
  · intro hstate
    rw [hsame.registered]
    apply h.connected (hsame.state_eq (by simp) hstate)
  · rw [hsame.registered, hsame.close]
    apply h.registered
  · intro hclose
    rw [hsame.close] at hclose
    obtain heq | ⟨-, hne⟩ := hsame.state
    · rw [heq]
      apply h.close hclose
    · exact absurd (h.close hclose) hne
  · intro hasking
    rw [hsame.registered]
    obtain hasking | hstate := hsame.asking hasking
    · apply h.asking hasking
    · apply h.connected hstate

theorem sameFd_of_same (hregistered : run'.connection.registered = run.connection.registered)
    (hclose : run'.connection.close = run.connection.close)
    (hstate : run'.connection.state = run.connection.state)
    (hasking : Polled.Asking run'.pc → Polled.Asking run.pc ∨ run.connection.state = .connected) :
  run.SameFd run'
  := ⟨hregistered, hclose, .inl hstate, hasking⟩

theorem SameFd.trans (h : run.SameFd run') (h' : run'.SameFd run'') :
  run.SameFd run''
  := by
  constructor
  · rw [h'.registered, h.registered]
  · rw [h'.close, h.close]
  · obtain heq' | ⟨heq', hne'⟩ := h'.state
    · rw [heq']
      apply h.state
    · right
      use heq'
      obtain heq | ⟨-, hne⟩ := h.state
      · rw [← heq]
        exact hne'
      · exact hne
  · intro hasking
    obtain hasking' | hstate := h'.asking hasking
    · apply h.asking hasking'
    · right
      apply h.state_eq (by simp) hstate

/-- The time of the last activity of the peer does not change either. -/
structure Quiet (run run' : IoRun) : Prop extends SameFd run run' where
  activity : run'.connection.lastPeerActivityTime = run.connection.lastPeerActivityTime

theorem quiet_of_same (hregistered : run'.connection.registered = run.connection.registered)
    (hclose : run'.connection.close = run.connection.close)
    (hactivity : run'.connection.lastPeerActivityTime = run.connection.lastPeerActivityTime)
    (hstate : run'.connection.state = run.connection.state)
    (hasking : Polled.Asking run'.pc → Polled.Asking run.pc ∨ run.connection.state = .connected) :
  run.Quiet run'
  := ⟨sameFd_of_same hregistered hclose hstate hasking, hactivity⟩

theorem Quiet.trans (h : run.Quiet run') (h' : run'.Quiet run'') : run.Quiet run'' :=
  ⟨h.toSameFd.trans h'.toSameFd, h'.activity.trans h.activity⟩

theorem quiet_refl (run : IoRun) : run.Quiet run := quiet_of_same rfl rfl rfl rfl .inl

theorem handleClose_quiet (run : IoRun) :
  run.Quiet run.handleClose
  := by
  obtain ⟨-, hclose⟩ | ⟨hopen, hclose⟩ := run.handleClose_cases
  · rw [hclose]
    exact quiet_of_same rfl rfl rfl rfl False.elim
  · rw [hclose]
    refine ⟨⟨registered_clearWriteBufferInLoop _, close_clearWriteBufferInLoop _, ?_, False.elim⟩,
      activity_clearWriteBufferInLoop _⟩
    right
    use state_clearWriteBufferInLoop _
    exact fun heq => hopen (.inr heq)

theorem Ends.quiet (h : run.Ends run') : run.Quiet run' := by
  cases h with
  | stay => apply run.quiet_refl
  | close => apply run.handleClose_quiet
  | write events hstate => exact quiet_of_same rfl rfl rfl rfl fun _ => .inr hstate
  | update hbusy =>
    refine quiet_of_same rfl rfl rfl rfl fun _ => ?_
    obtain hstate | ⟨events, hpc⟩ := hbusy
    · exact .inr hstate
    · left
      rw [hpc]
      trivial

theorem readFromSocket_quiet {connection : Connection} {reads : List ReadOutcome}
    {success : Bool} (h : run.connection.readFromSocket reads = some (success, connection))
    (callers : List Caller) :
  run.Quiet { run with connection, callers }
  := by
  rw [readFromSocket_eq h]
  exact quiet_of_same rfl rfl rfl rfl .inl

theorem handleEvent_quiet {events : UInt32} {reads : List ReadOutcome}
    (h : run.handleEvent events reads = some run') :
  run.Quiet run'
  := by
  obtain ⟨-, hends⟩ | ⟨-, success, connection, hread, rfl⟩ := handleEvent_cases h
  · apply hends.quiet
  cases success with
  | false => apply Quiet.trans (readFromSocket_quiet hread _) (handleClose_quiet _)
  | true => apply readFromSocket_quiet hread

theorem resumeEvent_quiet (run : IoRun) (events : UInt32) (answer : Bool) :
  run.Quiet (run.resumeEvent events answer)
  := (run.resumeEvent_ends events answer).quiet

theorem sendInLoop_quiet (run : IoRun) (send : Send) :
  run.Quiet (run.sendInLoop send)
  := by
  rw [sendInLoop]
  split
  · apply quiet_of_same (registered_releaseWriteBytes _ _) (close_releaseWriteBytes _ _)
      (activity_releaseWriteBytes _ _) (state_releaseWriteBytes _ _)
    exact False.elim
  · next hstate =>
    rw [not_or, not_not] at hstate
    exact quiet_of_same rfl rfl rfl rfl fun _ => .inr hstate.1

theorem writeToSocket_quiet {events : Option UInt32} (hpc : run.pc = .writeToSocket events)
    (outcome : WriteOutcome) :
  run.Quiet (run.writeToSocket events outcome)
  := by
  obtain hends | hsame | ⟨k, -, heq⟩ := writeToSocket_cases hpc outcome
  · apply hends.quiet
  · rw [hsame]
    apply run.quiet_refl
  · rw [heq]
    exact quiet_of_same (registered_releaseWriteBytes _ _) (close_releaseWriteBytes _ _)
      (activity_releaseWriteBytes _ _) (state_releaseWriteBytes _ _) .inl

theorem connectEstablished_quiet (run : IoRun) {added : Bool}
    (h : run.requestAdd added ≠ some (.add true)) :
  run.Quiet (run.connectEstablished added)
  := by
  obtain hsame | ⟨hstate, hregistered, hadded, -⟩ | hclose := run.connectEstablished_cases added
  · rw [hsame]
    apply run.quiet_refl
  · rw [requestAdd, if_neg (by simp [hstate, hregistered]), hadded] at h
    exact absurd rfl h
  · rw [hclose]
    apply run.handleClose_quiet

theorem reserveWriteBytes_quiet {len : Nat} {spurious : Bool} {reservation : Reservation}
    {verdict : Attempt} {connection : Connection}
    (h : run.connection.reserveWriteBytes len spurious reservation = (verdict, connection))
    (hconnection : run'.connection = connection)
    (hasking : Polled.Asking run'.pc → Polled.Asking run.pc) :
  run.Quiet run'
  := by
  have hrest : connection.registered = run.connection.registered
      ∧ connection.lastPeerActivityTime = run.connection.lastPeerActivityTime := by
    rw [reserveWriteBytes.eq_def] at h
    split at h <;>
      split at h <;>
      injection h with _ h <;>
      rw [← h] <;>
      exact ⟨rfl, rfl⟩
  obtain ⟨hstate, hclose⟩ := reserveWriteBytes_open h
  subst hconnection
  apply quiet_of_same hrest.1 hclose hrest.2 hstate fun h => .inl (hasking h)

theorem requestAdd_eq_some {added : Bool} {request : Request}
    (h : run.requestAdd added = some request) :
  request = .add added ∧ run.connection.state = .connecting ∧ run.connection.registered = false
  := by
  rw [requestAdd] at h
  split at h
  · cases h
  · next hstate =>
    cases h
    rw [not_or, not_not, Bool.not_eq_true] at hstate
    exact ⟨rfl, hstate⟩

theorem requestDestroy_eq_some {request : Request} (h : run.requestDestroy = some request) :
  request = .destroy ∧ run.connection.state ≠ .disconnected
  := by
  rw [requestDestroy] at h
  split at h
  · cases h
  · next hstate =>
    cases h
    use rfl, hstate

theorem requestDestroy_eq_none (h : run.requestDestroy ≠ some .destroy) :
  run.requestDestroy = none
  := by
  by_contra hsome
  obtain ⟨request, hrequest⟩ := Option.ne_none_iff_exists'.mp hsome
  obtain ⟨rfl, -⟩ := requestDestroy_eq_some hrequest
  apply h hrequest

theorem connectDestroyed_of_none (h : run.requestDestroy = none) :
  run.connection.connectDestroyed = run.connection
  := by
  rw [requestDestroy] at h
  split at h
  · next hstate => rw [Connection.connectDestroyed, if_pos hstate]
  · cases h

theorem request_functor {functor : Functor} {functors : List Functor}
    (hfunctors : run.functors = functor :: functors) (now : Int) (added : Bool) :
  run.request (.functor now added) = run.requestFunctor added functor
  := by
  rw [request, hfunctors]
  rfl

/-- A functor that neither adds nor removes the descriptor. -/
theorem runFunctor_quiet {functor : Functor} {now : Int} {added : Bool}
    (hadd : functor = .connectEstablished → run.requestAdd added ≠ some (.add true))
    (hdestroy : functor = .connectDestroyed → run.requestDestroy = none) :
  run.Quiet (run.runFunctor now added functor)
  := by
  cases functor with
  | sendInLoop send => exact quiet_of_same rfl rfl rfl rfl False.elim
  | handleClose => apply run.handleClose_quiet
  | checkTimeoutInLoop timeout =>
    obtain hclose | hsame := run.checkTimeoutInLoop_cases now timeout
    · rw [runFunctor, hclose]
      apply run.handleClose_quiet
    · rw [runFunctor, hsame]
      apply run.quiet_refl
  | connectEstablished => apply run.connectEstablished_quiet (hadd rfl)
  | connectDestroyed =>
    rw [runFunctor, connectDestroyed_of_none (hdestroy rfl)]
    exact quiet_of_same rfl rfl rfl rfl .inl

/-- The next functor of a batch, if it neither adds nor removes the descriptor. -/
theorem functor_quiet {now : Int} {added : Bool}
    (hadd : run.request (.functor now added) ≠ some (.add true))
    (hdestroy : run.request (.functor now added) ≠ some .destroy)
    (hstep : run.Step (.functor now added) run') :
  run.Quiet run'
  := by
  obtain ⟨-, functor, functors, hfunctors, rfl⟩ := hstep
  rw [request_functor hfunctors] at hadd hdestroy
  have hpop : run.Quiet { run with functors } := quiet_of_same rfl rfl rfl rfl .inl
  apply hpop.trans
  apply runFunctor_quiet
  · rintro rfl
    exact hadd
  · rintro rfl
    apply requestDestroy_eq_none hdestroy

/-- A step that neither adds nor removes the descriptor, and is not told of the peer. -/
theorem step_quiet {label : Label} (hadd : run.request label ≠ some (.add true))
    (hdestroy : run.request label ≠ some .destroy)
    (hrefresh : ∀ now, label ≠ .refreshPeerActivity now) (hstep : run.Step label run') :
  run.Quiet run'
  := by
  cases label with
  | event events reads => exact handleEvent_quiet hstep.2.2
  | doPendingFunctors =>
    obtain ⟨-, -, rfl⟩ := hstep
    exact quiet_of_same rfl rfl rfl rfl .inl
  | functor now added => exact functor_quiet hadd hdestroy hstep
  | sendInLoop =>
    obtain ⟨send, -, rfl⟩ := hstep
    exact run.sendInLoop_quiet send
  | writeToSocket outcome =>
    obtain ⟨events, hpc, rfl⟩ := hstep
    exact writeToSocket_quiet hpc outcome
  | updateFd success =>
    obtain ⟨-, rfl⟩ := hstep
    rw [updateFd]
    split
    · exact quiet_of_same rfl rfl rfl rfl False.elim
    · exact run.handleClose_quiet
  | sent =>
    obtain ⟨-, send, callers, -, rfl⟩ := hstep
    exact quiet_of_same rfl rfl rfl rfl .inl
  | enter =>
    obtain ⟨-, rfl⟩ := hstep
    exact quiet_of_same rfl rfl rfl rfl .inl
  | resume answer =>
    obtain ⟨-, caller, callers, -, -, rfl⟩ := hstep
    have hpop : run.Quiet { run with callers } := quiet_of_same rfl rfl rfl rfl .inl
    apply hpop.trans
    cases caller with
    | handleEvent events => exact resumeEvent_quiet _ events answer
    | _ => exact quiet_of_same rfl rfl rfl rfl .inl
  | send data =>
    obtain ⟨-, rfl⟩ := hstep
    rw [IoRun.send]
    split
    · exact quiet_of_same rfl rfl rfl rfl .inl
    · exact quiet_of_same rfl rfl rfl rfl False.elim
  | reserve spurious verdict =>
    obtain ⟨send, reservation, connection, -, hreserve, rfl⟩ := hstep
    apply reserveWriteBytes_quiet hreserve
    · cases verdict <;> rfl
    · cases verdict <;> exact False.elim
  | requestClose =>
    obtain ⟨-, rfl⟩ := hstep
    exact run.handleClose_quiet
  | connectEstablished added =>
    obtain ⟨-, rfl⟩ := hstep
    exact run.connectEstablished_quiet hadd
  | connectDestroyed =>
    obtain ⟨-, rfl⟩ := hstep
    rw [connectDestroyed_of_none (requestDestroy_eq_none hdestroy)]
    exact quiet_of_same rfl rfl rfl rfl .inl
  | refreshPeerActivity now => exact absurd rfl (hrefresh now)
  | setReadBuffer buffer =>
    obtain ⟨-, rfl⟩ := hstep
    exact quiet_of_same rfl rfl rfl rfl .inl
  | sendOther id data =>
    obtain ⟨-, rfl⟩ := hstep
    split <;> exact quiet_of_same rfl rfl rfl rfl .inl
  | reserveOther send spurious verdict =>
    obtain ⟨l, r, reservation, connection, -, hreserve, rfl⟩ := hstep
    apply reserveWriteBytes_quiet hreserve
    · cases verdict <;> rfl
    · cases verdict <;> exact id
  | queueSend send =>
    obtain ⟨l, r, -, rfl⟩ := hstep
    exact quiet_of_same rfl rfl rfl rfl .inl
  | queueInLoop functor =>
    obtain ⟨-, rfl⟩ := hstep
    exact quiet_of_same rfl rfl rfl rfl .inl

/-- A step that neither adds nor removes the descriptor. -/
theorem step_sameFd {label : Label} (hadd : run.request label ≠ some (.add true))
    (hdestroy : run.request label ≠ some .destroy) (hstep : run.Step label run') :
  run.SameFd run'
  := by
  by_cases hrefresh : ∃ now, label = .refreshPeerActivity now
  · obtain ⟨now, rfl⟩ := hrefresh
    obtain ⟨-, rfl⟩ := hstep
    rw [Connection.refreshPeerActivity]
    split <;> exact sameFd_of_same rfl rfl rfl .inl
  · apply (step_quiet hadd hdestroy (not_exists.mp hrefresh) hstep).toSameFd

theorem connectEstablished_of_add {added : Bool} (h : run.requestAdd added = some (.add true)) :
  run.connectEstablished added
    = { run with connection := run.connection.establish, interest := readEvents }
  := by
  rw [requestAdd] at h
  split at h
  · cases h
  · next hstate =>
    cases h
    rw [connectEstablished, if_neg hstate, if_pos rfl]

/-- A step that adds the descriptor establishes the connection. -/
theorem step_add {label : Label} (h : run.request label = some (.add true))
    (hstep : run.Step label run') :
  (run.connection.state = .connecting ∧ run.connection.registered = false)
    ∧ run'.connection = run.connection.establish ∧ run'.pc = .ready
  := by
  cases label with
  | connectEstablished added =>
    obtain ⟨⟨hpc, -⟩, rfl⟩ := hstep
    use (requestAdd_eq_some h).2
    rw [connectEstablished_of_add h]
    exact ⟨rfl, hpc⟩
  | functor now added =>
    obtain ⟨⟨hpc, -⟩, functor, functors, hfunctors, rfl⟩ := hstep
    rw [request_functor hfunctors] at h
    cases functor with
    | connectEstablished =>
      use (requestAdd_eq_some h).2
      have hadd : { run with functors }.requestAdd added = some (.add true) := h
      rw [runFunctor, connectEstablished_of_add hadd]
      exact ⟨rfl, hpc⟩
    | connectDestroyed => cases (requestDestroy_eq_some h).1
    | _ => cases h
  | connectDestroyed => cases (requestDestroy_eq_some h).1
  | _ => cases h

/-- A step that removes the descriptor destroys the connection. -/
theorem step_destroy {label : Label} (h : run.request label = some .destroy)
    (hstep : run.Step label run') :
  run.connection.state ≠ .disconnected
    ∧ run'.connection = run.connection.connectDestroyed ∧ run'.pc = .ready
  := by
  cases label with
  | connectDestroyed =>
    obtain ⟨⟨hpc, -⟩, rfl⟩ := hstep
    exact ⟨(requestDestroy_eq_some h).2, rfl, hpc⟩
  | functor now added =>
    obtain ⟨⟨hpc, -⟩, functor, functors, hfunctors, rfl⟩ := hstep
    rw [request_functor hfunctors] at h
    cases functor with
    | connectDestroyed => exact ⟨(requestDestroy_eq_some h).2, rfl, hpc⟩
    | connectEstablished => cases (requestAdd_eq_some h).1
    | _ => cases h
  | connectEstablished added => cases (requestAdd_eq_some h).1
  | _ => cases h

theorem Holds.open_of_connecting (h : run.Holds) (hstate : run.connection.state = .connecting) :
  run.connection.close = false
  := by
  by_contra hclose
  have hclosed := h.close (Bool.not_eq_false _ ▸ hclose)
  rw [hstate] at hclosed
  cases hclosed

theorem Holds.establish (h : run.Holds) (hstate : run.connection.state = .connecting)
    (hconnection : run'.connection = run.connection.establish) (hpc : run'.pc = .ready) :
  run'.Holds
  := by
  have hopen := h.open_of_connecting hstate
  constructor
  · intro hconnecting
    rw [hconnection] at hconnecting
    cases hconnecting
  · intro _
    rw [hconnection]
    rfl
  · intro _
    rw [hconnection]
    exact hopen
  · intro hclose
    rw [hconnection] at hclose
    exact absurd (hopen.symm.trans hclose) Bool.false_ne_true
  · intro hasking
    rw [hpc] at hasking
    cases hasking

theorem connectDestroyed_closed {connection : Connection} (h : connection.state ≠ .disconnected) :
  connection.connectDestroyed.registered = false ∧ connection.connectDestroyed.close = true
    ∧ connection.connectDestroyed.state = .disconnected
  := by
  rw [Connection.connectDestroyed, if_neg h]
  simp

theorem Holds.destroy (hstate : run.connection.state ≠ .disconnected)
    (hconnection : run'.connection = run.connection.connectDestroyed) (hpc : run'.pc = .ready) :
  run'.Holds
  := by
  obtain ⟨hregistered, -, hdisconnected⟩ := connectDestroyed_closed hstate
  rw [← hconnection] at hregistered hdisconnected
  constructor
  · intro _
    exact hregistered
  · intro hconnected
    rw [hdisconnected] at hconnected
    cases hconnected
  · intro hregistered'
    rw [hregistered] at hregistered'
    cases hregistered'
  · intro _
    exact hdisconnected
  · intro hasking
    rw [hpc] at hasking
    cases hasking

theorem step_holds {label : Label} (h : run.Holds) (hstep : run.Step label run') :
  run'.Holds
  := by
  by_cases hadd : run.request label = some (.add true)
  · obtain ⟨⟨hstate, -⟩, hconnection, hpc⟩ := step_add hadd hstep
    apply h.establish hstate hconnection hpc
  by_cases hdestroy : run.request label = some .destroy
  · obtain ⟨hstate, hconnection, hpc⟩ := step_destroy hdestroy hstep
    apply Holds.destroy hstate hconnection hpc
  · apply h.same (step_sameFd hadd hdestroy hstep)

end IoRun

end RoomServer
