import Mathlib.Data.Int.CardIntervalMod
import Mathlib.Data.Set.Card
import RoomServer.Net.TcpServer

/-!
# The pool of loops

A pool starts its threads, all of them or none, and gives out their loops in turn; a pool without
threads gives out the base loop.  A server takes a loop of its pool for each connection that it
accepts, while others are closed and removed.  The loops have got the same number of connections,
or one of them more: the server takes a loop only for a descriptor that becomes a connection.
-/

namespace RoomServer

/-- A pool of loops `L`. -/
structure EventLoopThreadPool (L : Type) where
  baseLoop : L
  threadCount : Nat
  started : Bool
  next : Nat
  loops : List L

namespace EventLoopThreadPool

variable {L : Type}

def new (baseLoop : L) (threadCount : Nat) : EventLoopThreadPool L :=
  ⟨baseLoop, threadCount, false, 0, []⟩

/-- Start a number of threads one after the other, until one fails. -/
def startThreads (startLoop : Nat → Option L) : Nat → Option (List L)
  | 0 => some []
  | i + 1 => do
    let loops ← startThreads startLoop i
    let loop ← startLoop i
    some (loops ++ [loop])

/-- Start the threads; `callable` says that the base loop is valid and that this is its thread. -/
def start (pool : EventLoopThreadPool L) (callable : Bool) (startLoop : Nat → Option L) :
    EventLoopThreadPool L × Bool :=
  if !callable || pool.started then
    (pool, false)
  else
    match startThreads startLoop pool.threadCount with
    | none => (pool, false)
    | some loops => ({ pool with loops, started := true, next := 0 }, true)

/-- The next loop, in the thread of the base loop. -/
def getNextLoop (pool : EventLoopThreadPool L) (inLoopThread : Bool) :
    EventLoopThreadPool L × Option L :=
  if !pool.started || !inLoopThread then
    (pool, none)
  else if pool.loops.isEmpty then
    (pool, some pool.baseLoop)
  else
    ({ pool with
      next := if pool.next + 1 = pool.loops.length then 0 else pool.next + 1 },
      pool.loops[pool.next]?)

/-- The loops of a pool that was started, by their numbers. -/
def ofServer (server : TcpServer) : EventLoopThreadPool (Option Nat) where
  baseLoop := none
  threadCount := server.threadCount
  started := true
  next := server.next
  loops := (List.range server.threadCount).map some

/-- The server takes its loops from the pool. -/
theorem getNextLoop_ofServer {server : TcpServer}
    (hnext : server.threadCount = 0 ∨ server.next < server.threadCount) :
  (ofServer server).getNextLoop true
    = ({ ofServer server with next := server.getNextLoop.2 }, some server.getNextLoop.1)
  := by
  rw [getNextLoop, TcpServer.getNextLoop]
  by_cases hzero : server.threadCount = 0
  · simp [ofServer, hzero]
  · have hlt : server.next < server.threadCount := by omega
    simp [ofServer, hzero, hlt]

theorem length_startThreads {startLoop : Nat → Option L} {n : Nat} {loops : List L}
    (h : startThreads startLoop n = some loops) :
  loops.length = n
  := by
  induction n generalizing loops with
  | zero =>
    cases h
    rfl
  | succ n ih =>
    simp only [startThreads, Option.bind_eq_bind, Option.bind_eq_some_iff,
      Option.some.injEq] at h
    obtain ⟨before, hbefore, loop, -, rfl⟩ := h
    rw [List.length_append, ih hbefore, List.length_singleton]

/-- A start that fails leaves the pool as it was, and another one gives it as many loops as it has
threads. -/
theorem start_cases (pool : EventLoopThreadPool L) (callable : Bool)
    (startLoop : Nat → Option L) :
  (pool.start callable startLoop).2 = false ∧ (pool.start callable startLoop).1 = pool
    ∨ (pool.start callable startLoop).2 = true
      ∧ (pool.start callable startLoop).1.started = true
      ∧ (pool.start callable startLoop).1.next = 0
      ∧ (pool.start callable startLoop).1.loops.length = pool.threadCount
  := by
  rw [start]
  split
  · left
    exact ⟨rfl, rfl⟩
  · split
    · left
      exact ⟨rfl, rfl⟩
    · next loops hloops =>
      right
      exact ⟨rfl, rfl, rfl, length_startThreads hloops⟩

end EventLoopThreadPool

namespace TcpServer

open EventLoopThreadPool (ofServer getNextLoop_ofServer)

/-- The connections that got a loop of the pool. -/
def givenTo (server : TcpServer) (i : Nat) : Set ConnId :=
  {c | ∃ peer, server.peers c = some peer ∧ peer.loop = some i}

/-- The connections that were accepted. -/
def accepted (server : TcpServer) : Set ConnId := {c | server.peers c ≠ none}

/-- What holds of the loops when `n` connections were accepted. -/
structure Spread (server : TcpServer) (n : Nat) : Prop where
  finite : server.accepted.Finite
  total : server.accepted.ncard = n
  next : server.threadCount ≠ 0 → server.next = n % server.threadCount
  counts : server.threadCount ≠ 0 → ∀ i < server.threadCount,
    (server.givenTo i).ncard = n.count (· % server.threadCount = i)

variable {server server' : TcpServer}

theorem spread_start (threadCount : Nat) (closedCallback : Bool) :
  (start threadCount closedCallback).Spread 0
  := by
  have hempty : (start threadCount closedCallback).accepted = ∅ := by
    ext c
    simp [accepted, start]
  constructor
  · rw [hempty]
    apply Set.finite_empty
  · rw [hempty, Set.ncard_empty]
  · intro _
    rw [Nat.zero_mod]
    rfl
  · intro _ i _
    have hgiven : (start threadCount closedCallback).givenTo i = ∅ := by
      ext c
      simp [givenTo, start]
    rw [hgiven, Set.ncard_empty, Nat.count_zero]

/-- Connections keep their loops. -/
theorem Spread.keep {n : Nat} (h : server.Spread n)
    (hcount : server'.threadCount = server.threadCount) (hnext : server'.next = server.next)
    (hloops : ∀ c, (server'.peers c).map Peer.loop = (server.peers c).map Peer.loop) :
  server'.Spread n
  := by
  have haccepted : server'.accepted = server.accepted := by
    ext c
    have hnone : server'.peers c = none ↔ server.peers c = none := by
      rw [← Option.map_eq_none_iff (f := Peer.loop), hloops, Option.map_eq_none_iff]
    exact not_congr hnone
  have hgiven : ∀ i, server'.givenTo i = server.givenTo i := by
    intro i
    ext c
    have hloop : ∀ server : TcpServer, c ∈ server.givenTo i
        ↔ (server.peers c).map Peer.loop = some (some i) := by
      intro server
      rw [Option.map_eq_some_iff]
      exact Iff.rfl
    rw [hloop, hloop, hloops]
  constructor
  · rw [haccepted]
    exact h.finite
  · rw [haccepted]
    exact h.total
  · rw [hcount, hnext]
    exact h.next
  · rw [hcount]
    intro hzero i hi
    rw [hgiven]
    apply h.counts hzero i hi

theorem getNextLoop_fst (hzero : server.threadCount ≠ 0) :
  server.getNextLoop.1 = some server.next
  := by
  rw [getNextLoop, if_neg hzero]

theorem getNextLoop_snd (hzero : server.threadCount ≠ 0) :
  server.getNextLoop.2 = if server.next + 1 = server.threadCount then 0 else server.next + 1
  := by
  rw [getNextLoop, if_neg hzero]

theorem succ_mod (n k : Nat) (hk : k ≠ 0) :
  (n + 1) % k = if n % k + 1 = k then 0 else n % k + 1
  := by
  have hlt := Nat.mod_lt n (Nat.pos_of_ne_zero hk)
  rw [← Nat.mod_add_mod]
  split
  · next heq => rw [heq, Nat.mod_self]
  · apply Nat.mod_eq_of_lt (by omega)

/-- A descriptor that becomes a connection takes the next loop. -/
theorem Spread.accept {n : Nat} (h : server.Spread n) {c : ConnId} (hnone : server.peers c = none)
    {fd : Nat} (hfd : fd ∉ server.connections) (now : Int) :
  (server.handleAccept c fd true now).Spread (n + 1)
  := by
  rw [handleAccept_of_notMem hfd]
  have hloop : (newPeer fd server.getNextLoop.1 now).loop = server.getNextLoop.1 := rfl
  generalize newPeer fd server.getNextLoop.1 now = peer at hloop
  have hpeers : ∀ c', (server.setPeer c peer).peers c'
      = if c' = c then some peer else server.peers c' := server.peers_setPeer c peer
  have haccepted : (server.setPeer c peer).accepted = insert c server.accepted := by
    ext c'
    have hmem : c' ∈ (server.setPeer c peer).accepted ↔ (server.setPeer c peer).peers c' ≠ none :=
      Iff.rfl
    rw [hmem, hpeers, Set.mem_insert_iff]
    by_cases heq : c' = c
    · simp [heq]
    · rw [if_neg heq, or_iff_right heq]
      exact Iff.rfl
  have hfresh : c ∉ server.accepted := by
    intro hmem
    exact hmem hnone
  constructor
  · exact haccepted ▸ h.finite.insert c
  · exact (congrArg Set.ncard haccepted).trans
      ((Set.ncard_insert_of_notMem hfresh h.finite).trans (congrArg (· + 1) h.total))
  · intro (hzero : server.threadCount ≠ 0)
    have hnext := h.next hzero
    have hturn := getNextLoop_snd hzero
    rw [hnext] at hturn
    exact hturn.trans (succ_mod n server.threadCount hzero).symm
  · intro (hzero : server.threadCount ≠ 0) i hi
    have hcount := h.counts hzero i hi
    have hnext := h.next hzero
    rw [getNextLoop_fst hzero, hnext] at hloop
    have hgiven : (server.setPeer c peer).givenTo i
        = if n % server.threadCount = i then insert c (server.givenTo i)
          else server.givenTo i := by
      ext c'
      have hmem : c' ∈ (server.setPeer c peer).givenTo i
          ↔ ∃ peer', (server.setPeer c peer).peers c' = some peer' ∧ peer'.loop = some i := Iff.rfl
      have hmem' : c' ∈ server.givenTo i
          ↔ ∃ peer', server.peers c' = some peer' ∧ peer'.loop = some i := Iff.rfl
      rw [hmem, hpeers]
      by_cases heq : c' = c
      · subst heq
        rw [if_pos rfl]
        split
        · next hturn => simp [hloop, hturn]
        · next hturn => simp [hmem', hnone, hloop, hturn]
      · rw [if_neg heq]
        split
        · rw [Set.mem_insert_iff, or_iff_right heq, hmem']
        · rw [hmem']
    have hold : c ∉ server.givenTo i := by
      rintro ⟨peer', hpeer', -⟩
      rw [hnone] at hpeer'
      cases hpeer'
    have hsubset : server.givenTo i ⊆ server.accepted := by
      rintro c' ⟨peer', hpeer', -⟩ hnone'
      rw [hnone'] at hpeer'
      cases hpeer'
    change ((server.setPeer c peer).givenTo i).ncard = (n + 1).count (· % server.threadCount = i)
    rw [hgiven, Nat.count_succ, ← hcount]
    split
    · apply Set.ncard_insert_of_notMem hold (h.finite.subset hsubset)
    · rfl

/-- How many connections a step adds. -/
def Label.accepts : Label → Nat
  | .accept _ _ nonblocking _ => nonblocking.toNat
  | _ => 0

theorem Spread.step {n : Nat} (h : server.Spread n) (hinv : server.Inv) {label : Label}
    (hstep : server.Step label server') :
  server'.Spread (n + label.accepts)
  := by
  have hset : ∀ {c : ConnId} {peer peer' : Peer}, server.peers c = some peer →
      peer'.loop = peer.loop → ∀ c', ((server.setPeer c peer').peers c').map Peer.loop
        = (server.peers c').map Peer.loop := by
    intro c peer peer' hpeer hloop c'
    rw [peers_setPeer]
    split
    · next heq => rw [heq, hpeer, Option.map_some, Option.map_some, hloop]
    · rfl
  cases label with
  | io c label =>
    obtain ⟨peer, io, hpeer, -, -, rfl⟩ := hstep
    exact h.keep rfl rfl (hset hpeer rfl)
  | closeCallback c =>
    obtain ⟨peer, callers, hpeer, -, -, rfl⟩ := hstep
    have hloop : (peer.leaveCallback callers).loop = peer.loop := by
      rw [Peer.leaveCallback]
      split <;> simp_all
    rw [removeConnection, removeConnectionInLoop]
    split
    · split <;> exact h.keep rfl rfl (hset hpeer hloop)
    · exact h.keep rfl rfl (hset hpeer hloop)
  | accept c fd nonblocking now =>
    obtain ⟨hnone, hfd, rfl⟩ := hstep
    cases nonblocking with
    | false => exact h
    | true => apply h.accept hnone (hinv.notMem_of_not_open hfd) now
  | post =>
    cases hstep
    exact h.keep rfl rfl fun _ => rfl
  | task =>
    obtain ⟨tasks, ⟨-, rfl⟩ | ⟨c, peer, -, -, rfl⟩⟩ := hstep
    · exact h.keep rfl rfl fun _ => rfl
    · rw [removeConnectionInLoop]
      split <;> exact h.keep rfl rfl fun _ => rfl
  | finishRemoval c =>
    obtain ⟨peer, -, hpeer, rfl⟩ := hstep
    exact h.keep rfl rfl (hset hpeer rfl)

/-- How the loops share the connections. -/
structure Shares (server : TcpServer) : Prop where
  finite : server.accepted.Finite
  /-- Each loop has got the same number, but that the first ones may have got one more. -/
  even : ∀ i < server.threadCount, (server.givenTo i).ncard
    = server.accepted.ncard / server.threadCount
      + if i < server.accepted.ncard % server.threadCount then 1 else 0
  /-- The next connection gets the next loop of the pool. -/
  next : (ofServer server).getNextLoop true
    = ({ ofServer server with next := server.getNextLoop.2 }, some server.getNextLoop.1)

/-- The loops share the connections evenly, in whatever order connections are accepted, closed and
removed. -/
theorem shares_of_reachable (h : system.Reachable server) :
  server.Shares
  := by
  have hspread : server.Inv ∧ ∃ n, server.Spread n := by
    apply h.invariant
    · rintro _ ⟨threadCount, closedCallback, rfl⟩
      exact ⟨inv_start threadCount closedCallback, 0, spread_start threadCount closedCallback⟩
    · rintro _ _ _ ⟨hinv, n, hspread⟩ _ hstep
      exact ⟨hinv.step hstep, _, hspread.step hinv hstep⟩
  obtain ⟨-, n, hspread⟩ := hspread
  constructor
  · exact hspread.finite
  · intro i hi
    have hpos : 0 < server.threadCount := by omega
    have hmod := n.count_modEq_card hpos i
    rw [Nat.mod_eq_of_lt hi] at hmod
    rw [hspread.counts (by omega) i hi, hspread.total, ← hmod, Nat.count_eq_card_filter_range,
      Nat.count_eq_card_filter_range]
    congr 1
    apply Finset.filter_congr
    intro m _
    rw [Nat.ModEq, Nat.mod_eq_of_lt hi]
  · apply getNextLoop_ofServer
    by_cases hzero : server.threadCount = 0
    · left
      exact hzero
    · right
      rw [hspread.next hzero]
      apply Nat.mod_lt n (Nat.pos_of_ne_zero hzero)

/-- Two loops and three connections. -/
theorem shares_three :
  ∃ server : TcpServer, server.threadCount = 2 ∧ server.connections.lookup 7 = some 3
    ∧ server.Shares
  := by
  have hstart : system.Reachable (start 2 true) := .initial ⟨2, true, rfl⟩
  have hfirst := hstart.step trivial (show system.Step _ (.accept 1 5 true 0) _ from
    ⟨rfl, by rintro ⟨_, _, ⟨⟩, _⟩, rfl⟩)
  have hsecond := hfirst.step trivial (show system.Step _ (.accept 2 6 true 0) _ from by
    refine ⟨rfl, ?_, rfl⟩
    rintro ⟨c, peer, hpeer, hfd, -⟩
    match c with
    | 0 => cases hpeer
    | 1 =>
      cases hpeer
      cases hfd
    | _ + 2 => cases hpeer)
  have hthird := hsecond.step trivial (show system.Step _ (.accept 3 7 true 0) _ from by
    refine ⟨rfl, ?_, rfl⟩
    rintro ⟨c, peer, hpeer, hfd, -⟩
    match c with
    | 0 => cases hpeer
    | 1 =>
      cases hpeer
      cases hfd
    | 2 =>
      cases hpeer
      cases hfd
    | _ + 3 => cases hpeer)
  exact ⟨_, rfl, rfl, shares_of_reachable hthird⟩

end TcpServer

end RoomServer
