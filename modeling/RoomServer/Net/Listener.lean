import RoomServer.Lib.EdgeTriggered
import RoomServer.Net.EventLoopThreadPool

/-!
# The listening socket

A server that starts makes its listening socket, adds it to the base loop and starts its pool, or
gives up and closes what it has made.  The base loop watches the socket edge-triggered, and its
handler accepts connections until there are none.

Each client that came to the socket got a connection, or was closed because its descriptor could
not be made non-blocking, or waits to be accepted; and a loop that waits has left no client
waiting, as long as `accept` fails for no other reason.
-/

namespace RoomServer

open EdgeTriggered (Source Turn)

/-- A server with its listening socket; `dropped` counts the clients it has closed at once. -/
structure Listener where
  listenFd : Bool
  listenRegistered : Bool
  started : Bool
  source : Source Nat
  server : TcpServer
  dropped : Nat

namespace Listener

def new (threadCount : Nat) (closedCallback : Bool) : Listener where
  listenFd := false
  listenRegistered := false
  started := false
  source := .new .idle
  server := .start threadCount closedCallback
  dropped := 0

/-- Remove the socket from the loop and close it. -/
def closeListenSocket (listener : Listener) : Listener :=
  { listener with
    listenFd := false
    listenRegistered := false
    source := .new listener.source.turn }

/-- Start the server.  `callable` says that the base loop is valid, that this is its thread and
that there is a message callback, and the others whether the socket can be made, whether it can be
added to the loop, and whether the pool starts. -/
def start (listener : Listener) (callable socket added pool : Bool) : Listener × Bool :=
  if !callable || listener.started || listener.listenFd || listener.listenRegistered then
    (listener, false)
  else if !socket then
    (listener, false)
  else if !added then
    ({ listener with listenFd := true }.closeListenSocket, false)
  else if !pool then
    ({ listener with listenFd := true, listenRegistered := true }.closeListenSocket, false)
  else
    ({ listener with
      listenFd := true
      listenRegistered := true
      started := true
      source := listener.source.watch (listener.source.pending ≠ 0) }, true)

/-- The loop comes to a report of the socket, where clients wait if `epollIn`. -/
def handleAccept (listener : Listener) (epollIn : Bool) : Listener :=
  if !listener.started || !listener.listenRegistered || !listener.listenFd then
    { listener with source := listener.source.giveUp }
  else if !epollIn then
    { listener with source := listener.source.giveUp }
  else
    { listener with source := listener.source.dispatch }

/-! ### The system -/

/-- The steps: the start, clients, the turns of the base loop, and the steps of the connections
and their removal. -/
inductive Label where
  | start (callable socket added pool : Bool)
  | connect (n : Nat)
  | report
  | handleAccept (epollIn : Bool)
  | accept (c : ConnId) (fd : Nat) (nonblocking : Bool) (now : Int)
  | acceptFailed
  | finish
  | server (label : TcpServer.Label)

/-- The handler does not accept. -/
def Free (listener : Listener) : Prop := ∀ taken, listener.source.turn ≠ .reading taken

def Step (listener : Listener) (label : Label) (listener' : Listener) : Prop :=
  match label with
  | .start callable socket added pool =>
    listener.Free ∧ listener' = (listener.start callable socket added pool).1
  | .connect n =>
    listener.listenFd = true ∧ listener' = { listener with source := listener.source.arrive n }
  | .report =>
    listener.source.turn = .idle ∧ listener.source.ready = true ∧ listener.source.pending ≠ 0
      ∧ listener' = { listener with source := listener.source.report }
  | .handleAccept epollIn =>
    listener.source.turn = .reported ∧ listener' = listener.handleAccept epollIn
  | .accept c fd nonblocking now =>
    ¬ listener.Free ∧ ∃ rest server, listener.source.pending = 1 + rest
      ∧ listener.server.Step (.accept c fd nonblocking now) server
      ∧ listener' = { listener with
        source := listener.source.read 1 rest
        server
        dropped := listener.dropped + (!nonblocking).toNat }
  | .acceptFailed =>
    ¬ listener.Free ∧ listener' = { listener with source := listener.source.giveUp }
  | .finish =>
    ¬ listener.Free ∧ listener.source.pending = 0
      ∧ listener' = { listener with source := listener.source.finish }
  | .server label =>
    label.accepts = 0 ∧ ∃ server, listener.server.Step label server
      ∧ listener' = { listener with server }

def system : System Listener Label where
  Initial listener := ∃ threadCount closedCallback, listener = new threadCount closedCallback
  Step := Step

/-- The socket is reported for clients, and `accept` fails only because there is no client, or is
interrupted. -/
def NoFailure (_ : Listener) (label : Label) : Prop :=
  label ≠ .handleAccept false ∧ label ≠ .acceptFailed

/-! ### The invariant -/

structure Inv (listener : Listener) : Prop where
  sound : listener.source.Sound
  /-- Without a socket nothing has come. -/
  fresh : listener.listenFd = false → listener.source = .new .idle
  started : listener.started = listener.listenFd
  registered : listener.listenRegistered = listener.listenFd
  watched : listener.source.watched = listener.listenFd
  reachable : TcpServer.system.Reachable listener.server
  /-- The clients that were read from the socket have connections, or were dropped. -/
  clients : ∃ n, listener.server.Spread n
    ∧ listener.source.handed.sum + listener.source.turn.taken = n + listener.dropped

variable {listener listener' : Listener}

theorem inv_new (threadCount : Nat) (closedCallback : Bool) :
  (new threadCount closedCallback).Inv
  where
  sound := Source.new_sound rfl
  fresh := fun _ => rfl
  started := rfl
  registered := rfl
  watched := rfl
  reachable := .initial ⟨threadCount, closedCallback, rfl⟩
  clients := ⟨0, TcpServer.spread_start threadCount closedCallback, rfl⟩

/-- The source goes on, and no client is read. -/
theorem Inv.go (h : listener.Inv) (hopen : listener.listenFd = true) {source : Source Nat}
    (hsound : source.Sound) (hwatched : source.watched = listener.source.watched)
    (hread : source.handed.sum + source.turn.taken
      = listener.source.handed.sum + listener.source.turn.taken) :
  Inv { listener with source }
  := by
  constructor
  · exact hsound
  · intro hclosed
    rw [show listener.listenFd = false from hclosed] at hopen
    cases hopen
  · exact h.started
  · exact h.registered
  · exact hwatched.trans h.watched
  · exact h.reachable
  · obtain ⟨n, hspread, hclients⟩ := h.clients
    exact ⟨n, hspread, hread.trans hclients⟩

theorem Inv.start (h : listener.Inv) (callable socket added pool : Bool) :
  (listener.start callable socket added pool).1.Inv
  := by
  rw [Listener.start]
  split
  · exact h
  · next hcan =>
    simp only [Bool.or_eq_true, Bool.not_eq_true', not_or, Bool.not_eq_false,
      Bool.not_eq_true] at hcan
    obtain ⟨⟨⟨-, hstarted⟩, hclosed⟩, hregistered⟩ := hcan
    have hfresh := h.fresh hclosed
    have hclose : ∀ listener' : Listener, listener'.started = false →
        listener'.source = listener.source → listener'.server = listener.server →
          listener'.dropped = listener.dropped → listener'.closeListenSocket.Inv := by
      intro listener' hstarted' hsource hserver hdropped
      have hsame : listener'.closeListenSocket.source = listener.source := by
        rw [closeListenSocket, hsource, hfresh]
        rfl
      constructor
      · rw [hsame]
        exact h.sound
      · intro _
        rw [hsame]
        exact hfresh
      · exact hstarted'
      · rfl
      · rw [hsame, h.watched, hclosed]
        rfl
      · exact hserver ▸ h.reachable
      · rw [hsame]
        obtain ⟨n, hspread, hclients⟩ := h.clients
        exact ⟨n, hserver ▸ hspread, hclients.trans (congrArg (n + ·) hdropped.symm)⟩
    split
    · exact h
    split
    · apply hclose _ hstarted rfl rfl rfl
    split
    · apply hclose _ hstarted rfl rfl rfl
    · constructor
      · apply h.sound.watch
        exact decide_eq_true
      · rintro ⟨⟩
      · rfl
      · rfl
      · rfl
      · exact h.reachable
      · exact h.clients

/-- What is not new came from a socket. -/
theorem Inv.opened (h : listener.Inv) (hused : listener.source ≠ .new .idle) :
  listener.listenFd = true
  := by
  by_contra hclosed
  exact hused (h.fresh (Bool.not_eq_true _ ▸ hclosed))

theorem Inv.opened_of_reading (h : listener.Inv) (hreads : ¬ listener.Free) :
  listener.listenFd = true
  := by
  apply h.opened
  intro hfresh
  apply hreads
  rw [Free, hfresh]
  nofun

theorem Inv.opened_of_turn (h : listener.Inv) (hturn : listener.source.turn ≠ .idle) :
  listener.listenFd = true
  := by
  apply h.opened
  intro hfresh
  rw [hfresh] at hturn
  exact hturn rfl

/-- A report of the socket begins the handler: there is none of a socket that was closed. -/
theorem Inv.handleAccept (h : listener.Inv) (hreported : listener.source.turn = .reported) :
  (listener.handleAccept true).Inv
  := by
  have hopen := h.opened_of_turn (by rw [hreported]; nofun)
  have hruns : (!listener.started || !listener.listenRegistered || !listener.listenFd) = false := by
    rw [h.started, h.registered, hopen]
    rfl
  rw [Listener.handleAccept, hruns, if_neg Bool.false_ne_true, Bool.not_true,
    if_neg Bool.false_ne_true]
  apply h.go hopen
  · apply h.sound.dispatch hreported
  · rfl
  · rw [Source.dispatch, hreported]
    dsimp only
    split <;> rfl

/-- A client is accepted: it gets a connection, or is dropped. -/
theorem Inv.accept (h : listener.Inv) (hopen : listener.listenFd = true) {rest : Nat}
    (hpending : listener.source.pending = 1 + rest) {c : ConnId} {fd : Nat} {nonblocking : Bool}
    {now : Int} {server : TcpServer}
    (hstep : listener.server.Step (.accept c fd nonblocking now) server) :
  Inv { listener with
    source := listener.source.read 1 rest
    server
    dropped := listener.dropped + (!nonblocking).toNat }
  := by
  constructor
  · apply h.sound.read hpending
  · intro hclosed
    rw [show listener.listenFd = false from hclosed] at hopen
    cases hopen
  · exact h.started
  · exact h.registered
  · exact h.watched
  · apply h.reachable.step trivial
      (show TcpServer.system.Step _ (.accept c fd nonblocking now) _ from hstep)
  · obtain ⟨n, hspread, hclients⟩ := h.clients
    have hinv := TcpServer.inv_of_reachable h.reachable
    use n + nonblocking.toNat, hspread.step hinv hstep
    change listener.source.handed.sum + (listener.source.turn.taken + 1)
      = n + nonblocking.toNat + (listener.dropped + (!nonblocking).toNat)
    cases nonblocking <;> simp only [Bool.not_true, Bool.not_false, Bool.toNat_true,
      Bool.toNat_false] <;> omega

theorem Inv.step (h : listener.Inv) {label : Label} (hok : listener.NoFailure label)
    (hstep : listener.Step label listener') :
  listener'.Inv
  := by
  cases label with
  | start callable socket added pool =>
    obtain ⟨-, rfl⟩ := hstep
    apply h.start callable socket added pool
  | connect n =>
    obtain ⟨hopen, rfl⟩ := hstep
    apply h.go hopen
    · apply h.sound.arrive n
    · rfl
    · rfl
  | report =>
    obtain ⟨hidle, hready, -, rfl⟩ := hstep
    apply h.go
    · apply h.opened
      intro hfresh
      rw [hfresh] at hready
      cases hready
    · apply h.sound.report hidle
    · rfl
    · rw [hidle]
      rfl
  | handleAccept epollIn =>
    obtain ⟨hreported, rfl⟩ := hstep
    cases epollIn with
    | false => exact absurd rfl hok.1
    | true => apply h.handleAccept hreported
  | accept c fd nonblocking now =>
    obtain ⟨hreads, rest, server, hpending, hstep, rfl⟩ := hstep
    apply h.accept (h.opened_of_reading hreads) hpending hstep
  | acceptFailed => exact absurd rfl hok.2
  | finish =>
    obtain ⟨hreads, hempty, rfl⟩ := hstep
    apply h.go (h.opened_of_reading hreads)
    · apply h.sound.finish hempty
    · rfl
    · simp [Source.finish, Turn.taken]
  | server label =>
    obtain ⟨hnone, server, hstep, rfl⟩ := hstep
    obtain ⟨n, hspread, hclients⟩ := h.clients
    have hspread' := hspread.step (TcpServer.inv_of_reachable h.reachable) hstep
    rw [hnone] at hspread'
    exact ⟨h.sound, h.fresh, h.started, h.registered, h.watched,
      h.reachable.step trivial (show TcpServer.system.Step _ label _ from hstep), n, hspread',
      hclients⟩

theorem inv_of_reachable (h : system.ReachableBy NoFailure listener) : listener.Inv := by
  apply h.invariant
  · rintro _ ⟨threadCount, closedCallback, rfl⟩
    apply inv_new threadCount closedCallback
  · intro _ _ _ hinv hok hstep
    apply hinv.step hok hstep

/-! ### The clients -/

/-- What becomes of the clients. -/
structure Serves (listener : Listener) : Prop where
  /-- A server that was not started has no socket, also when a start has failed. -/
  started : listener.started = listener.listenFd ∧ listener.listenRegistered = listener.listenFd
  /-- A client has got a connection, was dropped, or waits. -/
  clients : listener.source.arrived
    = listener.server.accepted.ncard + listener.dropped + listener.source.pending
  /-- No client waits while the loop waits and the socket does not wake it. -/
  prompt : listener.source.turn = .idle → listener.source.ready = false →
    listener.source.pending = 0

/-- Every client that comes to the socket of a server gets a connection or is dropped, and is not
left waiting, whatever the connections do that there are. -/
theorem serves_of_reachable (h : system.ReachableBy NoFailure listener) :
  listener.Serves
  := by
  have hinv := inv_of_reachable h
  obtain ⟨n, hspread, hclients⟩ := hinv.clients
  constructor
  · exact ⟨hinv.started, hinv.registered⟩
  · rw [hinv.sound.conserved, hclients, hspread.total]
  · intro hidle hready
    cases hopen : listener.listenFd with
    | false => rw [hinv.fresh hopen]; rfl
    | true =>
      by_contra hpending
      obtain hready' | hturn := hinv.sound.noticed (hinv.watched.trans hopen) hpending
      · rw [hready] at hready'
        cases hready'
      · exact hturn hidle

/-- A second client came while the first one was accepted, after a start that had failed. -/
theorem served_two :
  ∃ listener : Listener, listener.source.arrived = 2 ∧ listener.dropped = 1 ∧ listener.Serves
  := by
  have h : system.ReachableBy NoFailure (new 1 true) := .initial ⟨1, true, rfl⟩
  have hfailed := h.step (ℓ := Label.start true true true false) ⟨nofun, nofun⟩ ⟨nofun, rfl⟩
  have hstarted := hfailed.step (ℓ := Label.start true true true true) ⟨nofun, nofun⟩ ⟨nofun, rfl⟩
  have hcame := hstarted.step (ℓ := Label.connect 1) ⟨nofun, nofun⟩ ⟨rfl, rfl⟩
  have hreported := hcame.step (ℓ := Label.report) ⟨nofun, nofun⟩ ⟨rfl, rfl, nofun, rfl⟩
  have hhandled := hreported.step (ℓ := Label.handleAccept true) ⟨nofun, nofun⟩ ⟨rfl, rfl⟩
  have haccepted := hhandled.step (ℓ := Label.accept 1 5 true 0) ⟨nofun, nofun⟩
    ⟨fun h => h _ rfl, 0, _, rfl, ⟨rfl, by rintro ⟨_, _, ⟨⟩, _⟩, rfl⟩, rfl⟩
  have hcame' := haccepted.step (ℓ := Label.connect 1) ⟨nofun, nofun⟩ ⟨rfl, rfl⟩
  have hdropped := hcame'.step (ℓ := Label.accept 2 6 false 0) ⟨nofun, nofun⟩
    (show Step _ (.accept 2 6 false 0) _ from by
      refine ⟨fun h => h _ rfl, 0, _, rfl, ⟨rfl, ?_, rfl⟩, rfl⟩
      rintro ⟨c, peer, hpeer, hfd, -⟩
      match c with
      | 0 => cases hpeer
      | 1 =>
        cases hpeer
        cases hfd
      | _ + 2 => cases hpeer)
  exact ⟨_, rfl, rfl, serves_of_reachable hdropped⟩

end Listener

end RoomServer
