import Mathlib.Logic.Function.Basic
import RoomServer.Game.Room
import RoomServer.Lib.UnorderedMap
import RoomServer.Net.Closing

/-!
# The connections of a server

A server accepts connections in the base loop and keeps them in a table by their descriptors.
Each has a loop of the pool, or the base loop when the pool has none.  The close callback of a
connection posts its removal to the base loop, or removes it at once when it is called there:
the server tells its user that the connection is closed, erases its entry, and posts
`connectDestroyed`, which closes the descriptor, to the loop of the connection.

The user is code of others, and while it is told of a connection anything may happen.  The kernel
gives the descriptor of an accepted connection to another one only after it was closed.
-/

namespace RoomServer

/-- A connection that was accepted; its loop is one of the pool or the base loop. -/
structure TcpServer.Peer where
  fd : Nat
  loop : Option Nat
  io : IoRun

/-- A task of the base loop: the removal of a connection, or one of the user. -/
inductive TcpServer.Task where
  | removeConnection (c : ConnId)
  | business
  deriving DecidableEq

/-- A server that was started.  `closing` are the connections whose removal has begun, and the
server has a record of those the user was told of, and of those it has removed. -/
structure TcpServer where
  threadCount : Nat
  next : Nat
  /-- There is a callback for closed connections. -/
  closedCallback : Bool
  peers : ConnId → Option TcpServer.Peer
  connections : UnorderedMap Nat ConnId
  tasks : List TcpServer.Task
  removing : List ConnId
  notified : List ConnId
  removed : List ConnId

namespace TcpServer

/-- A server that was just started. -/
def start (threadCount : Nat) (closedCallback : Bool) : TcpServer :=
  ⟨threadCount, 0, closedCallback, fun _ => none, ∅, [], [], [], []⟩

def setPeer (server : TcpServer) (c : ConnId) (peer : Peer) : TcpServer :=
  { server with peers := Function.update server.peers c (some peer) }

/-- The loops of the pool in turn, or else the base loop. -/
def getNextLoop (server : TcpServer) : Option Nat × Nat :=
  if server.threadCount = 0 then
    (none, server.next)
  else
    (some server.next, if server.next + 1 = server.threadCount then 0 else server.next + 1)

/-- A connection whose `connectEstablished` is to be run in its loop, or in the current task when
this is the base loop. -/
def newPeer (fd : Nat) (loop : Option Nat) (now : Int) : Peer where
  fd := fd
  loop := loop
  io :=
    match loop with
    | none => ⟨.new now, 0, .ready, [.task], [], [], [], false, [], [], 0, []⟩
    | some _ => ⟨.new now, 0, .ready, [], [], [.connectEstablished], [], false, [], [], 0, []⟩

/-- Take over an accepted descriptor; it is closed if it cannot be made non-blocking, or if there
is a connection with it. -/
def handleAccept (server : TcpServer) (c : ConnId) (fd : Nat) (nonblocking : Bool) (now : Int) :
    TcpServer :=
  if !nonblocking then
    server
  else if fd ∈ server.connections then
    { server with next := server.getNextLoop.2 }
  else
    { server.setPeer c (newPeer fd server.getNextLoop.1 now) with
      next := server.getNextLoop.2
      connections := server.connections.insert fd c }

/-- Remove a connection that the server still has, up to the return of the user's callback. -/
def removeConnectionInLoop (server : TcpServer) (c : ConnId) (peer : Peer) : TcpServer :=
  if server.connections.lookup peer.fd = some c then
    { server with
      removing := c :: server.removing
      notified := if server.closedCallback then c :: server.notified else server.notified }
  else
    server

/-- The end of the removal of a connection. -/
def finishRemoval (server : TcpServer) (c : ConnId) (peer : Peer) : TcpServer :=
  { server.setPeer c { peer with
      io := { peer.io with
        pendingFunctors := peer.io.pendingFunctors ++ [.connectDestroyed] } } with
    connections := server.connections.erase peer.fd
    removing := server.removing.erase c
    removed := c :: server.removed }

/-- The close callback of a connection runs the removal in the base loop. -/
def removeConnection (server : TcpServer) (c : ConnId) (peer : Peer) : TcpServer :=
  match peer.loop with
  | none => server.removeConnectionInLoop c peer
  | some _ => { server with tasks := server.tasks ++ [.removeConnection c] }

/-- A close callback in the base loop returns when the removal does. -/
def Peer.leaveCallback (peer : Peer) (callers : List IoRun.Caller) : Peer :=
  match peer.loop with
  | none => { peer with io := { peer.io with callers := .task :: callers } }
  | some _ => { peer with io := { peer.io with callers } }

/-! ### The system -/

/-- The steps of the connections, their close callbacks, and the steps of the base loop. -/
inductive Label where
  | io (c : ConnId) (label : IoRun.Label)
  | closeCallback (c : ConnId)
  | accept (c : ConnId) (fd : Nat) (nonblocking : Bool) (now : Int)
  | post
  | task
  | finishRemoval (c : ConnId)

/-- The steps of a connection, but those in which the server takes part.  Other threads ask it
to close or to check for a timeout. -/
def Peer.Allows (peer : Peer) : IoRun.Label → Prop
  | .connectEstablished _ => peer.loop = none
  | .connectDestroyed => False
  | .queueInLoop functor =>
    functor = .handleClose ∨ ∃ timeout, functor = .checkTimeoutInLoop timeout
  | .resume _ => peer.io.callers.head? ≠ some .handleClose
  | _ => True

/-- The descriptor belongs to a connection that has not closed it. -/
def Open (server : TcpServer) (fd : Nat) : Prop :=
  ∃ c peer, server.peers c = some peer ∧ peer.fd = fd ∧ peer.io.connection.close = false

def Step (server : TcpServer) (label : Label) (server' : TcpServer) : Prop :=
  match label with
  | .io c label =>
    ∃ peer io, server.peers c = some peer ∧ peer.Allows label ∧ peer.io.Step label io
      ∧ server' = server.setPeer c { peer with io }
  | .closeCallback c =>
    ∃ peer callers, server.peers c = some peer ∧ peer.io.pc = .ready
      ∧ peer.io.callers = .handleClose :: callers
      ∧ server' = (server.setPeer c (peer.leaveCallback callers)).removeConnection c peer
  | .accept c fd nonblocking now =>
    server.peers c = none ∧ ¬ server.Open fd
      ∧ server' = server.handleAccept c fd nonblocking now
  | .post => server' = { server with tasks := server.tasks ++ [.business] }
  | .task =>
    ∃ tasks, server.tasks = .business :: tasks ∧ server' = { server with tasks }
      ∨ ∃ c peer, server.tasks = .removeConnection c :: tasks ∧ server.peers c = some peer
        ∧ server' = { server with tasks }.removeConnectionInLoop c peer
  | .finishRemoval c =>
    ∃ peer, c ∈ server.removing ∧ server.peers c = some peer
      ∧ server' = server.finishRemoval c peer

def system : System TcpServer Label where
  Initial server := ∃ threadCount closedCallback, server = start threadCount closedCallback
  Step := Step

/-! ### The invariant -/

/-- How often the removal of a connection was posted, has begun or has ended. -/
def removals (server : TcpServer) (c : ConnId) : Nat :=
  server.tasks.count (.removeConnection c) + server.removing.count c + server.removed.count c

/-- What holds of a connection: it has an entry until it is removed, it is closed at most once,
which leads to one removal, and it is destroyed behind that. -/
structure Kept (server : TcpServer) (c : ConnId) (peer : Peer) : Prop where
  entry : c ∉ server.removed → server.connections.lookup peer.fd = some c
  once : peer.io.closing + server.removals c = 1
  destroyed : peer.io.Condemned → c ∈ server.removed

structure Inv (server : TcpServer) : Prop where
  unknown : ∀ c, server.peers c = none → server.removals c = 0
  known : ∀ fd c, server.connections.lookup fd = some c →
    c ∉ server.removed ∧ ∃ peer, server.peers c = some peer ∧ peer.fd = fd
  kept : ∀ c peer, server.peers c = some peer → server.Kept c peer
  notified : ∀ c, server.notified.count c ≤ server.removing.count c + server.removed.count c

variable {server server' : TcpServer} {c : ConnId} {peer : Peer}

theorem inv_start (threadCount : Nat) (closedCallback : Bool) :
  (start threadCount closedCallback).Inv
  := by
  constructor
  · intro c _
    rfl
  · intro fd c h
    cases h
  · intro c peer h
    cases h
  · intro c
    apply Nat.le_refl 0

@[simp]
theorem peers_setPeer (server : TcpServer) (c : ConnId) (peer : Peer) (c' : ConnId) :
  (server.setPeer c peer).peers c' = if c' = c then some peer else server.peers c'
  := Function.update_apply server.peers c (some peer) c'

/-- A removal that is posted, begins or has ended is the only one, and the close callback has
returned. -/
theorem Kept.of_removals_pos (h : server.Kept c peer) (hpos : 0 < server.removals c) :
  peer.io.closing = 0 ∧ server.removals c = 1
  := by
  have honce := h.once
  omega

theorem Kept.left_of_removals_pos (h : server.Kept c peer) (hpos : 0 < server.removals c) :
  peer.io.Left
  := by
  have hclosing := (h.of_removals_pos hpos).1
  rw [IoRun.closing] at hclosing
  by_contra hopen
  rw [if_neg hopen] at hclosing
  omega

/-- Only one connection acts, and the table stays as it is. -/
theorem Inv.act (h : server.Inv) (hpeer : server.peers c = some peer) (peer' : Peer)
    (hfd : peer'.fd = peer.fd)
    (hpeers : ∀ c', server'.peers c' = if c' = c then some peer' else server.peers c')
    (hconnections : server'.connections = server.connections)
    (hremoved : server'.removed = server.removed)
    (hothers : ∀ c', c' ≠ c → server'.removals c' = server.removals c')
    (honce : peer'.io.closing + server'.removals c = peer.io.closing + server.removals c)
    (hdestroyed : peer'.io.Condemned → c ∈ server.removed)
    (hnotified : ∀ c', server'.notified.count c'
      ≤ server'.removing.count c' + server'.removed.count c') :
  server'.Inv
  := by
  have hkept := h.kept c peer hpeer
  constructor
  · intro c' hnone
    rw [hpeers] at hnone
    split at hnone
    · cases hnone
    · next hne =>
      rw [hothers c' hne]
      apply h.unknown c' hnone
  · intro fd c' hlookup
    rw [hconnections] at hlookup
    obtain ⟨hnot, peer'', hpeer'', rfl⟩ := h.known fd c' hlookup
    rw [hremoved, hpeers]
    use hnot
    split
    · next heq =>
      rw [heq, hpeer] at hpeer''
      cases hpeer''
      use peer', rfl
    · use peer''
  · intro c' peer'' hpeer''
    rw [hpeers] at hpeer''
    split at hpeer''
    · next heq =>
      cases hpeer''
      subst heq
      constructor
      · rw [hremoved, hconnections, hfd]
        apply hkept.entry
      · rw [honce]
        apply hkept.once
      · rw [hremoved]
        exact hdestroyed
    · next hne =>
      obtain ⟨hentry, honce', hdestroyed'⟩ := h.kept c' peer'' hpeer''
      constructor
      · rw [hremoved, hconnections]
        exact hentry
      · rw [hothers c' hne]
        exact honce'
      · rw [hremoved]
        exact hdestroyed'
  · exact hnotified

/-! ### The steps -/

theorem Peer.Allows.ordinary {label : IoRun.Label} (h : peer.Allows label)
    (hfunctor : ∀ now added, label = .functor now added →
      peer.io.functors.head? ≠ some .connectDestroyed) :
  peer.io.Ordinary label
  := by
  cases label with
  | connectDestroyed => cases h
  | queueInLoop functor =>
    obtain rfl | ⟨timeout, rfl⟩ := h <;> simp [IoRun.Ordinary]
  | functor now added => apply hfunctor now added rfl
  | resume answer => exact h
  | _ => trivial

theorem Inv.io (h : server.Inv) {label : IoRun.Label} {io : IoRun}
    (hpeer : server.peers c = some peer) (hallows : peer.Allows label)
    (hstep : peer.io.Step label io) :
  (server.setPeer c { peer with io }).Inv
  := by
  have hkept := h.kept c peer hpeer
  suffices hio : io.closing = peer.io.closing ∧ (io.Condemned → c ∈ server.removed) by
    apply h.act hpeer { peer with io }
    · rfl
    · apply server.peers_setPeer c { peer with io }
    · rfl
    · rfl
    · intro c' _
      rfl
    · rw [hio.1]
      rfl
    · apply hio.2
    · apply h.notified
  by_cases hdestroys : (∃ now added, label = .functor now added)
      ∧ peer.io.functors.head? = some .connectDestroyed
  · obtain ⟨⟨now, added, rfl⟩, hhead⟩ := hdestroys
    obtain ⟨-, functor, functors, hfunctors, rfl⟩ := hstep
    rw [hfunctors, List.head?_cons, Option.some.injEq] at hhead
    subst hhead
    have hmem : c ∈ server.removed := by
      apply hkept.destroyed
      right
      rw [hfunctors]
      apply List.mem_append_left _ List.mem_cons_self
    have hremovals : 0 < server.removals c := by
      have := List.count_pos_iff.mpr hmem
      rw [removals]
      omega
    have hleft := hkept.left_of_removals_pos hremovals
    constructor
    · apply IoRun.connectDestroyed_closing hleft functors
    · intro _
      exact hmem
  · have hlives := IoRun.step_lives (hallows.ordinary fun now added heq hhead =>
      hdestroys ⟨⟨now, added, heq⟩, hhead⟩) hstep
    use hlives.closing
    intro hcondemned
    apply hkept.destroyed (hlives.condemned hcondemned)

theorem count_append_removal (tasks : List Task) (c c' : ConnId) :
  (tasks ++ [Task.removeConnection c]).count (.removeConnection c')
    = tasks.count (.removeConnection c') + if c = c' then 1 else 0
  := by
  rw [List.count_append, List.count_singleton]
  simp

/-- The user is told of a connection whose removal begins, and of no other. -/
theorem notified_of_begin (h : server.Inv) (c c' : ConnId) :
  (if server.closedCallback then c :: server.notified else server.notified).count c'
    ≤ (c :: server.removing).count c' + server.removed.count c'
  := by
  have hnotified := h.notified c'
  split <;>
    simp only [List.count_cons] <;>
    omega

/-- Before its removal begins a connection has its entry. -/
theorem Kept.lookup (h : server.Kept c peer)
    (hpending : 0 < peer.io.closing + server.tasks.count (.removeConnection c)) :
  server.connections.lookup peer.fd = some c
  := by
  apply h.entry
  intro hmem
  have honce := h.once
  have hpos := List.count_pos_iff.mpr hmem
  rw [removals] at honce
  omega

theorem closing_leaveCallback {callers : List IoRun.Caller}
    (hcallers : peer.io.callers = .handleClose :: callers) :
  (peer.leaveCallback callers).io.closing + 1 = peer.io.closing
  := by
  have hcount : peer.io.callers.count .handleClose = callers.count .handleClose + 1 := by
    rw [hcallers, List.count_cons_self]
  have hcount' : (peer.leaveCallback callers).io.callers.count .handleClose
      = callers.count .handleClose := by
    rw [Peer.leaveCallback]
    split
    · apply List.count_cons_of_ne (by simp)
    · rfl
  have hleft : (peer.leaveCallback callers).io.Left ↔ peer.io.Left := by
    rw [Peer.leaveCallback]
    split <;> rfl
  rw [IoRun.closing, IoRun.closing, hcount, hcount', if_congr hleft rfl rfl]
  omega

theorem Inv.closeCallback (h : server.Inv) {callers : List IoRun.Caller}
    (hpeer : server.peers c = some peer) (hcallers : peer.io.callers = .handleClose :: callers) :
  ((server.setPeer c (peer.leaveCallback callers)).removeConnection c peer).Inv
  := by
  have hkept := h.kept c peer hpeer
  have hclosing := closing_leaveCallback hcallers
  have hdestroyed : (peer.leaveCallback callers).io.Condemned → c ∈ server.removed := by
    rw [Peer.leaveCallback]
    split <;> exact hkept.destroyed
  have hfd : (peer.leaveCallback callers).fd = peer.fd := by
    rw [Peer.leaveCallback]
    split <;> rfl
  have hpeers := server.peers_setPeer c (peer.leaveCallback callers)
  rw [removeConnection]
  split
  · have hlookup : (server.setPeer c (peer.leaveCallback callers)).connections.lookup peer.fd
        = some c := hkept.lookup (by omega)
    rw [removeConnectionInLoop, if_pos hlookup]
    apply h.act hpeer _ hfd
    · exact hpeers
    · rfl
    · rfl
    · intro c' hne
      have hcount : (c :: server.removing).count c' = server.removing.count c' :=
        List.count_cons_of_ne (Ne.symm hne)
      simp only [removals, setPeer, hcount]
    · simp only [removals, setPeer, List.count_cons_self]
      omega
    · exact hdestroyed
    · apply notified_of_begin h c
  · apply h.act hpeer _ hfd
    · exact hpeers
    · rfl
    · rfl
    · intro c' hne
      simp only [removals, setPeer, count_append_removal, if_neg (Ne.symm hne), Nat.add_zero]
    · simp only [removals, setPeer, count_append_removal, if_true]
      omega
    · exact hdestroyed
    · apply h.notified

/-- The base loop runs a removal that was posted. -/
theorem Inv.removal (h : server.Inv) {tasks : List Task}
    (htasks : server.tasks = .removeConnection c :: tasks) (hpeer : server.peers c = some peer) :
  ({ server with tasks }.removeConnectionInLoop c peer).Inv
  := by
  have hkept := h.kept c peer hpeer
  have hself : server.tasks.count (.removeConnection c)
      = tasks.count (.removeConnection c) + 1 := by
    rw [htasks, List.count_cons_self]
  have hlookup : AList.lookup peer.fd { server with tasks }.connections = some c :=
    hkept.lookup (by omega)
  rw [removeConnectionInLoop, if_pos hlookup]
  apply h.act hpeer peer rfl
  · intro c'
    by_cases heq : c' = c
    · rw [if_pos heq, heq, ← hpeer]
    · rw [if_neg heq]
  · rfl
  · rfl
  · intro c' hne
    have hcount : (c :: server.removing).count c' = server.removing.count c' :=
      List.count_cons_of_ne (Ne.symm hne)
    have hother : server.tasks.count (.removeConnection c')
        = tasks.count (.removeConnection c') := by
      rw [htasks, List.count_cons_of_ne]
      intro heq
      cases heq
      apply hne rfl
    simp only [removals, hcount, hother]
  · simp only [removals, List.count_cons_self, hself]
    omega
  · apply hkept.destroyed
  · apply notified_of_begin h c

theorem Inv.business (h : server.Inv) {tasks : List Task}
    (htasks : ∀ c, tasks.count (.removeConnection c) = server.tasks.count (.removeConnection c)) :
  Inv { server with tasks }
  := by
  have hremovals : ∀ c, removals { server with tasks } c = server.removals c := by
    intro c
    simp only [removals, htasks]
  constructor
  · intro c hnone
    rw [hremovals]
    apply h.unknown c hnone
  · apply h.known
  · intro c peer hpeer
    obtain ⟨hentry, honce, hdestroyed⟩ := h.kept c peer hpeer
    constructor
    · exact hentry
    · rw [hremovals]
      exact honce
    · exact hdestroyed
  · apply h.notified

/-- A descriptor that is not open has no entry. -/
theorem Inv.notMem_of_not_open (h : server.Inv) {fd : Nat} (hfd : ¬ server.Open fd) :
  fd ∉ server.connections
  := by
  intro hmem
  obtain ⟨c, hlookup⟩ := AList.mem_iff_lookup.mp hmem
  obtain ⟨hnot, peer, hpeer, rfl⟩ := h.known fd c hlookup
  apply hfd
  use c, peer, hpeer, rfl
  by_contra hclose
  rw [Bool.not_eq_false] at hclose
  apply hnot ((h.kept c peer hpeer).destroyed (.inl (.inr hclose)))

theorem notMem_removed_of_removals (h : server.removals c = 0) : c ∉ server.removed := by
  intro hmem
  have hpos := List.count_pos_iff.mpr hmem
  rw [removals] at h
  omega

theorem closing_newPeer (fd : Nat) (loop : Option Nat) (now : Int) :
  (newPeer fd loop now).io.closing = 1 ∧ ¬ (newPeer fd loop now).io.Condemned
  := by
  cases loop <;>
    simp [newPeer, IoRun.closing, IoRun.Left, IoRun.Condemned, IoRun.Destroyed, Connection.new]

/-- A descriptor without an entry gets one. -/
theorem handleAccept_of_notMem {fd : Nat} (hfd : fd ∉ server.connections) (c : ConnId) (now : Int) :
  server.handleAccept c fd true now
    = { server.setPeer c (newPeer fd server.getNextLoop.1 now) with
      next := server.getNextLoop.2
      connections := server.connections.insert fd c }
  := by
  rw [handleAccept, if_neg (by simp), if_neg hfd]

theorem Inv.accept (h : server.Inv) (hnone : server.peers c = none) {fd : Nat}
    (hfd : ¬ server.Open fd) (nonblocking : Bool) (now : Int) :
  (server.handleAccept c fd nonblocking now).Inv
  := by
  cases nonblocking with
  | false => exact h
  | true =>
    have hfresh := h.notMem_of_not_open hfd
    rw [handleAccept_of_notMem hfresh]
    obtain ⟨hclosing, hcondemned⟩ := closing_newPeer fd server.getNextLoop.1 now
    have hnew : (newPeer fd server.getNextLoop.1 now).fd = fd := rfl
    generalize newPeer fd server.getNextLoop.1 now = peer at hclosing hcondemned hnew
    have hremovals := h.unknown c hnone
    constructor
    · intro c' hnone'
      dsimp only at hnone'
      rw [peers_setPeer] at hnone'
      split at hnone'
      · cases hnone'
      · apply h.unknown c' hnone'
    · intro fd' c' hlookup'
      dsimp only at hlookup' ⊢
      rw [AList.lookup_insert_eq_ite] at hlookup'
      rw [peers_setPeer]
      split at hlookup'
      · next heq =>
        cases hlookup'
        use notMem_removed_of_removals hremovals, peer
        rw [if_pos rfl]
        exact ⟨rfl, hnew.trans heq.symm⟩
      · obtain ⟨hnot, peer', hpeer', heq⟩ := h.known fd' c' hlookup'
        use hnot, peer'
        rw [if_neg]
        · exact ⟨hpeer', heq⟩
        · rintro rfl
          rw [hnone] at hpeer'
          cases hpeer'
    · intro c' peer' hpeer'
      dsimp only at hpeer'
      rw [peers_setPeer] at hpeer'
      split at hpeer'
      · next heq =>
        cases hpeer'
        subst heq
        constructor
        · intro _
          dsimp only
          rw [hnew, AList.lookup_insert_eq_ite, if_pos rfl]
        · rw [hclosing]
          apply congrArg (1 + ·) hremovals
        · intro hcondemned'
          exact absurd hcondemned' hcondemned
      · obtain ⟨hentry, honce, hdestroyed⟩ := h.kept c' peer' hpeer'
        constructor
        · intro hnot
          have hlookup' := hentry hnot
          dsimp only
          rw [AList.lookup_insert_eq_ite, if_neg]
          · exact hlookup'
          · rintro rfl
            apply hfresh (AList.mem_iff_lookup.mpr ⟨c', hlookup'⟩)
        · exact honce
        · exact hdestroyed
    · apply h.notified

section FinishRemoval

variable {c' : ConnId} {peer' : Peer}

theorem peers_finishRemoval (server : TcpServer) (c : ConnId) (peer : Peer) (c' : ConnId) :
  (server.finishRemoval c peer).peers c' = if c' = c then some { peer with io := { peer.io with
    pendingFunctors := peer.io.pendingFunctors ++ [.connectDestroyed] } } else server.peers c'
  := by
  apply peers_setPeer

theorem lookup_finishRemoval (server : TcpServer) (c : ConnId) (peer : Peer) (fd : Nat) :
  (server.finishRemoval c peer).connections.lookup fd
    = if fd = peer.fd then none else server.connections.lookup fd
  := by
  apply AList.lookup_erase_eq_ite server.connections fd peer.fd

/-- A removal that ends has begun. -/
theorem count_finishRemoval (hmem : c ∈ server.removing) (peer : Peer) (c' : ConnId) :
  (server.finishRemoval c peer).removing.count c' + (server.finishRemoval c peer).removed.count c'
    = server.removing.count c' + server.removed.count c'
  := by
  simp only [TcpServer.finishRemoval, setPeer]
  by_cases heq : c' = c
  · subst heq
    have hpos := List.count_pos_iff.mpr hmem
    rw [List.count_erase_self, List.count_cons_self]
    omega
  · rw [List.count_erase_of_ne heq, List.count_cons_of_ne (Ne.symm heq)]

theorem removals_finishRemoval (hmem : c ∈ server.removing) (peer : Peer) (c' : ConnId) :
  (server.finishRemoval c peer).removals c' = server.removals c'
  := by
  have hcount := count_finishRemoval hmem peer c'
  have htasks : (server.finishRemoval c peer).tasks = server.tasks := rfl
  rw [removals, removals, htasks]
  omega

/-- A connection whose removal has begun and not ended has its entry. -/
theorem Kept.lookup_of_removing (h : server.Kept c peer) (hmem : c ∈ server.removing) :
  server.connections.lookup peer.fd = some c
  := by
  apply h.entry
  intro hremoved
  have hpos := List.count_pos_iff.mpr hmem
  have hremoved' := List.count_pos_iff.mpr hremoved
  have honce := h.once
  rw [removals] at honce
  omega

/-- What has an entry behind the removal is another connection. -/
theorem Inv.known_finishRemoval (h : server.Inv) (hpeer : server.peers c = some peer) {fd : Nat}
    (hlookup : (server.finishRemoval c peer).connections.lookup fd = some c') :
  c' ∉ (server.finishRemoval c peer).removed
    ∧ ∃ peer', (server.finishRemoval c peer).peers c' = some peer' ∧ peer'.fd = fd
  := by
  rw [lookup_finishRemoval] at hlookup
  split at hlookup
  · cases hlookup
  next hne =>
  obtain ⟨hnot, peer', hpeer', heq⟩ := h.known fd c' hlookup
  have hother : c' ≠ c := by
    rintro rfl
    rw [hpeer] at hpeer'
    cases hpeer'
    apply hne heq.symm
  constructor
  · apply List.not_mem_cons_of_ne_of_not_mem hother hnot
  · use peer'
    rw [peers_finishRemoval, if_neg hother]
    exact ⟨hpeer', heq⟩

/-- The connection that was removed is to be destroyed. -/
theorem Kept.finishRemoval_self (h : server.Kept c peer) (hmem : c ∈ server.removing) :
  (server.finishRemoval c peer).Kept c { peer with io := { peer.io with
    pendingFunctors := peer.io.pendingFunctors ++ [.connectDestroyed] } }
  where
  entry hremoved := absurd List.mem_cons_self hremoved
  once := by
    rw [removals_finishRemoval hmem]
    apply h.once
  destroyed _ := List.mem_cons_self

/-- The others keep what they have. -/
theorem Kept.finishRemoval_other (h : server.Kept c' peer') (hne : c' ≠ c)
    (hentry : server.connections.lookup peer.fd = some c) (hmem : c ∈ server.removing) :
  (server.finishRemoval c peer).Kept c' peer'
  where
  entry := by
    intro hremoved
    have hlookup := h.entry fun hmem' => hremoved (List.mem_cons_of_mem _ hmem')
    rw [lookup_finishRemoval, if_neg]
    · exact hlookup
    · intro heq
      rw [heq, hentry, Option.some.injEq] at hlookup
      apply hne hlookup.symm
  once := by
    rw [removals_finishRemoval hmem]
    apply h.once
  destroyed hcondemned := List.mem_cons_of_mem _ (h.destroyed hcondemned)

theorem Inv.finishRemoval (h : server.Inv) (hmem : c ∈ server.removing)
    (hpeer : server.peers c = some peer) :
  (server.finishRemoval c peer).Inv
  := by
  have hkept := h.kept c peer hpeer
  constructor
  · intro c' hnone
    rw [removals_finishRemoval hmem]
    rw [peers_finishRemoval] at hnone
    split at hnone
    · cases hnone
    · apply h.unknown c' hnone
  · intro fd c' hlookup
    apply h.known_finishRemoval hpeer hlookup
  · intro c' peer' hpeer'
    rw [peers_finishRemoval] at hpeer'
    split at hpeer'
    · next heq =>
      cases hpeer'
      subst heq
      apply hkept.finishRemoval_self hmem
    · next hne =>
      apply (h.kept c' peer' hpeer').finishRemoval_other hne (hkept.lookup_of_removing hmem) hmem
  · intro c'
    rw [count_finishRemoval hmem]
    apply h.notified

end FinishRemoval

theorem Inv.step (h : server.Inv) {label : Label} (hstep : server.Step label server') :
  server'.Inv
  := by
  cases label with
  | io c label =>
    obtain ⟨peer, io, hpeer, hallows, hio, rfl⟩ := hstep
    apply h.io hpeer hallows hio
  | closeCallback c =>
    obtain ⟨peer, callers, hpeer, -, hcallers, rfl⟩ := hstep
    apply h.closeCallback hpeer hcallers
  | accept c fd nonblocking now =>
    obtain ⟨hnone, hfd, rfl⟩ := hstep
    apply h.accept hnone hfd nonblocking now
  | post =>
    cases hstep
    apply h.business
    intro c
    rw [List.count_append, List.count_singleton]
    simp
  | task =>
    obtain ⟨tasks, ⟨htasks, rfl⟩ | ⟨c, peer, htasks, hpeer, rfl⟩⟩ := hstep
    · apply h.business
      intro c
      rw [htasks, List.count_cons_of_ne (by simp)]
    · apply h.removal htasks hpeer
  | finishRemoval c =>
    obtain ⟨peer, hmem, hpeer, rfl⟩ := hstep
    apply h.finishRemoval hmem hpeer

theorem inv_of_reachable (h : system.Reachable server) : server.Inv := by
  apply h.invariant
  · rintro _ ⟨threadCount, closedCallback, rfl⟩
    apply inv_start threadCount closedCallback
  · intro _ _ _ hinv _ hstep
    apply hinv.step hstep

/-! ### The table -/

/-- What the server guarantees of its connections. -/
structure Table (server : TcpServer) : Prop where
  /-- The user is told of a connection at most once. -/
  once : server.notified.Nodup
  /-- It is told in a removal, while the connection is the entry for its descriptor. -/
  told : ∀ label server', server.Step label server' → ∀ c ∈ server'.notified,
    c ∈ server.notified ∨ c ∈ server'.removing
  removing : ∀ c ∈ server.removing,
    ∃ peer, server.peers c = some peer ∧ server.connections.lookup peer.fd = some c
  /-- A connection is an entry until its removal has ended. -/
  entry : ∀ c peer, server.peers c = some peer →
    (server.connections.lookup peer.fd = some c ↔ c ∉ server.removed)
  /-- There is one removal of a connection that has left the connected state, unless its close
  callback still runs, and none of another connection. -/
  closed : ∀ c peer, server.peers c = some peer →
    peer.io.callers.count .handleClose + server.removals c = if peer.io.Left then 1 else 0
  /-- Nothing but the end of its own removal erases an entry. -/
  erased : ∀ label server', server.Step label server' → ∀ fd c,
    server.connections.lookup fd = some c →
      server'.connections.lookup fd = some c
        ∨ label = .finishRemoval c ∧ server'.connections.lookup fd = none
  /-- A connection whose descriptor is closed has no entry. -/
  descriptor : ∀ c peer, server.peers c = some peer → peer.io.connection.close = true →
    server.connections.lookup peer.fd ≠ some c
  /-- No accepted descriptor is closed because there is an entry for it. -/
  accepted : ∀ c fd now server', server.Step (.accept c fd true now) server' →
    fd ∉ server.connections ∧ server'.connections.lookup fd = some c

theorem Inv.removed_iff (h : server.Inv) (hpeer : server.peers c = some peer) :
  server.connections.lookup peer.fd = some c ↔ c ∉ server.removed
  := by
  constructor
  · intro hlookup
    apply (h.known peer.fd c hlookup).1
  · apply (h.kept c peer hpeer).entry

theorem Inv.of_removing (h : server.Inv) (hmem : c ∈ server.removing) :
  ∃ peer, server.peers c = some peer ∧ server.connections.lookup peer.fd = some c
  := by
  have hcount := List.count_pos_iff.mpr hmem
  have hpos : 0 < server.removals c := by
    rw [removals]
    omega
  cases hpeer : server.peers c with
  | none =>
    have hnone := h.unknown c hpeer
    omega
  | some peer => exact ⟨peer, rfl, (h.kept c peer hpeer).lookup_of_removing hmem⟩

theorem connections_removeConnectionInLoop (server : TcpServer) (c : ConnId) (peer : Peer) :
  (server.removeConnectionInLoop c peer).connections = server.connections
  := by
  rw [removeConnectionInLoop]
  split <;> rfl

theorem connections_removeConnection (server : TcpServer) (c : ConnId) (peer : Peer) :
  (server.removeConnection c peer).connections = server.connections
  := by
  rw [removeConnection]
  split
  · apply server.connections_removeConnectionInLoop c peer
  · rfl

/-- A step keeps an entry, or it is the end of the removal of its connection. -/
theorem Inv.erased (h : server.Inv) {label : Label} (hstep : server.Step label server') {fd : Nat}
    (hlookup : server.connections.lookup fd = some c) :
  server'.connections.lookup fd = some c
    ∨ label = .finishRemoval c ∧ server'.connections.lookup fd = none
  := by
  cases label with
  | io c' label =>
    obtain ⟨peer, io, -, -, -, rfl⟩ := hstep
    left
    exact hlookup
  | closeCallback c' =>
    obtain ⟨peer, callers, -, -, -, rfl⟩ := hstep
    left
    rw [connections_removeConnection]
    exact hlookup
  | accept c' fd' nonblocking now =>
    obtain ⟨-, hfd, rfl⟩ := hstep
    left
    cases nonblocking with
    | false => exact hlookup
    | true =>
      have hfresh := h.notMem_of_not_open hfd
      rw [handleAccept_of_notMem hfresh]
      dsimp only
      rw [AList.lookup_insert_eq_ite, if_neg]
      · exact hlookup
      · rintro rfl
        apply hfresh (AList.mem_iff_lookup.mpr ⟨c, hlookup⟩)
  | post =>
    cases hstep
    left
    exact hlookup
  | task =>
    obtain ⟨tasks, ⟨-, rfl⟩ | ⟨c', peer, -, -, rfl⟩⟩ := hstep
    · left
      exact hlookup
    · left
      rw [connections_removeConnectionInLoop]
      exact hlookup
  | finishRemoval c' =>
    obtain ⟨peer, hmem, hpeer, rfl⟩ := hstep
    obtain ⟨peer', hpeer', hentry⟩ := h.of_removing hmem
    rw [hpeer, Option.some.injEq] at hpeer'
    subst hpeer'
    rw [lookup_finishRemoval]
    split
    · next heq =>
      right
      rw [heq, hentry, Option.some.injEq] at hlookup
      exact ⟨congrArg _ hlookup, rfl⟩
    · left
      exact hlookup

theorem notified_removeConnectionInLoop {c' : ConnId}
    (h : c ∈ (server.removeConnectionInLoop c' peer).notified) :
  c ∈ server.notified ∨ c ∈ (server.removeConnectionInLoop c' peer).removing
  := by
  rw [removeConnectionInLoop] at h ⊢
  split at h
  · next hentry =>
    rw [if_pos hentry]
    dsimp only at h ⊢
    split at h
    · obtain rfl | h := List.mem_cons.mp h
      · right
        apply List.mem_cons_self
      · left
        exact h
    · left
      exact h
  · left
    exact h

/-- The user is told of a connection only when its removal begins. -/
theorem told_of_step {label : Label} (hstep : server.Step label server')
    (hmem : c ∈ server'.notified) :
  c ∈ server.notified ∨ c ∈ server'.removing
  := by
  cases label with
  | io c' label =>
    obtain ⟨peer, io, -, -, -, rfl⟩ := hstep
    left
    exact hmem
  | closeCallback c' =>
    obtain ⟨peer, callers, -, -, -, rfl⟩ := hstep
    rw [removeConnection] at hmem ⊢
    split at hmem
    · apply notified_removeConnectionInLoop hmem
    · left
      exact hmem
  | accept c' fd nonblocking now =>
    obtain ⟨-, -, rfl⟩ := hstep
    left
    rw [handleAccept] at hmem
    split at hmem
    · exact hmem
    split at hmem <;> exact hmem
  | post =>
    cases hstep
    left
    exact hmem
  | task =>
    obtain ⟨tasks, ⟨-, rfl⟩ | ⟨c', peer, -, -, rfl⟩⟩ := hstep
    · left
      exact hmem
    · apply notified_removeConnectionInLoop hmem
  | finishRemoval c' =>
    obtain ⟨peer, -, -, rfl⟩ := hstep
    left
    exact hmem

/-- In every run the user is told of a connection at most once, and while it is the entry for
its descriptor.  The entry is erased exactly when its own connection is closed, the descriptor is
closed behind that, and no accepted descriptor has an entry. -/
theorem table_of_reachable (h : system.Reachable server) :
  server.Table
  := by
  have hinv := inv_of_reachable h
  constructor
  · rw [List.nodup_iff_count_le_one]
    intro c
    have hnotified := hinv.notified c
    cases hpeer : server.peers c with
    | none =>
      have hnone := hinv.unknown c hpeer
      rw [removals] at hnone
      omega
    | some peer =>
      have honce := (hinv.kept c peer hpeer).once
      rw [removals] at honce
      omega
  · intro label server' hstep c hmem
    apply told_of_step hstep hmem
  · intro c hmem
    apply hinv.of_removing hmem
  · intro c peer hpeer
    apply hinv.removed_iff hpeer
  · intro c peer hpeer
    have honce := (hinv.kept c peer hpeer).once
    rw [IoRun.closing] at honce
    split <;>
      next hleft =>
        simp only [hleft, if_true, if_false] at honce
        omega
  · intro label server' hstep fd c hlookup
    apply hinv.erased hstep hlookup
  · intro c peer hpeer hclose hlookup
    apply (hinv.removed_iff hpeer).mp hlookup
    apply (hinv.kept c peer hpeer).destroyed
    left; right
    exact hclose
  · intro c fd now server' hstep
    obtain ⟨-, hfd, rfl⟩ := hstep
    have hfresh := hinv.notMem_of_not_open hfd
    use hfresh
    rw [handleAccept_of_notMem hfresh]
    apply AList.lookup_insert _

/-- A connection that could not be added to its loop is removed, and its descriptor belongs to
another one. -/
theorem table_reused :
  ∃ server : TcpServer, server.connections.lookup 5 = some 2 ∧ server.notified = [1]
    ∧ server.removed = [1] ∧ server.Table
  := by
  have hstart : system.Reachable (start 1 true) := .initial ⟨1, true, rfl⟩
  have haccepted := hstart.step trivial (show system.Step _ (.accept 1 5 true 0) _ from
    ⟨rfl, by rintro ⟨_, _, ⟨⟩, _⟩, rfl⟩)
  have hqueued := haccepted.step trivial (show system.Step _ (.io 1 .doPendingFunctors) _ from
    ⟨_, _, rfl, trivial, ⟨⟨rfl, rfl⟩, rfl, rfl⟩, rfl⟩)
  have hfailed := hqueued.step trivial (show system.Step _ (.io 1 (.functor 0 false)) _ from
    ⟨_, _, rfl, trivial, ⟨⟨rfl, rfl⟩, _, _, rfl, rfl⟩, rfl⟩)
  have hposted := hfailed.step trivial (show system.Step _ (.closeCallback 1) _ from
    ⟨_, _, rfl, rfl, rfl, rfl⟩)
  have htold := hposted.step trivial (show system.Step _ .task _ from
    ⟨_, .inr ⟨_, _, rfl, rfl, rfl⟩⟩)
  have herased := htold.step trivial (show system.Step _ (.finishRemoval 1) _ from
    ⟨_, List.mem_cons_self, rfl, rfl⟩)
  have hqueued' := herased.step trivial (show system.Step _ (.io 1 .doPendingFunctors) _ from
    ⟨_, _, rfl, trivial, ⟨⟨rfl, rfl⟩, rfl, rfl⟩, rfl⟩)
  have hdestroyed := hqueued'.step trivial (show system.Step _ (.io 1 (.functor 0 false)) _ from
    ⟨_, _, rfl, trivial, ⟨⟨rfl, rfl⟩, _, _, rfl, rfl⟩, rfl⟩)
  have hreused := hdestroyed.step trivial (show system.Step _ (.accept 2 5 true 0) _ from by
    refine ⟨rfl, ?_, rfl⟩
    rintro ⟨c, peer, hpeer, -, hclose⟩
    match c with
    | 0 => cases hpeer
    | 1 =>
      cases hpeer
      cases hclose
    | _ + 2 => cases hpeer)
  exact ⟨_, rfl, rfl, rfl, table_of_reachable hreused⟩

end TcpServer

end RoomServer
