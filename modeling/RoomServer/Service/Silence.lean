import RoomServer.Net.FdTable
import RoomServer.Service.Inbound

/-!
# Silent clients

The base loop asks the connections from time to time to close when their peers have been silent
for too long, and each of them compares its clock with the time of the last activity.  This is
the time at which it was accepted, or at which its last frame came: a request, or a heartbeat
with the layout of one.  Bytes that are not yet a frame do not count.

A check closes a connection exactly when all its frames came at least that long ago, and it was
accepted at least that long ago.  So a client that sends its heartbeats in time is never closed
for its silence, and one that has stopped is closed by the first check that comes late enough.
-/

namespace RoomServer

/-- A frame from which the server knows that the peer is there. -/
def Frame.isSign (f : Frame) : Bool := f.isRequest || f.ack.isSome

/-! ### One connection -/

namespace IoRun

variable {run run' run'' : IoRun}

/-- A connection that is still open was so before, and knows of no new activity. -/
def Unheard (run run' : IoRun) : Prop :=
  ¬run'.Left → ¬run.Left
    ∧ run'.connection.lastPeerActivityTime = run.connection.lastPeerActivityTime

theorem Quiet.unheard (h : run.Quiet run') : run.Unheard run' := by
  intro hopen
  refine ⟨?_, h.activity⟩
  obtain hstate | ⟨hstate, -⟩ := h.state
  · rw [Left, ← hstate]
    exact hopen
  · exact absurd (.inl hstate) hopen

/-- No step but one that is told of the peer changes the time of the last activity. -/
theorem step_unheard {label : Label} (hrefresh : ∀ now, label ≠ .refreshPeerActivity now)
    (hstep : run.Step label run') :
  run.Unheard run'
  := by
  by_cases hadd : run.request label = some (.add true)
  · obtain ⟨⟨hstate, -⟩, hconnection, -⟩ := step_add hadd hstep
    intro _
    rw [hconnection, Left, hstate]
    exact ⟨by simp, rfl⟩
  by_cases hdestroy : run.request label = some .destroy
  · obtain ⟨hstate, hconnection, -⟩ := step_destroy hdestroy hstep
    intro hopen
    apply absurd _ hopen
    right
    rw [hconnection]
    apply (connectDestroyed_closed hstate).2.2
  · apply (step_quiet hadd hdestroy hrefresh hstep).unheard

theorem state_handleClose (hopen : ¬run.Left) :
  run.handleClose.connection.state = .disconnecting
  := by
  rw [handleClose, Connection.handleClose, if_neg (show ¬(_ ∨ _) from hopen)]
  apply Connection.state_clearWriteBufferInLoop _

end IoRun

namespace Peer

variable {peer : Peer}

theorem unheard_answer (peer : Peer) (events : UInt32) (callers : List IoRun.Caller)
    (answer : Bool) :
  peer.io.Unheard (peer.answer events callers answer).io
  := by
  have hquiet : IoRun.Quiet { peer.io with callers } (peer.answer events callers answer).io :=
    IoRun.resumeEvent_quiet _ events answer
  apply hquiet.unheard

/-- Whether the callback takes a frame off the buffer from which the server knows that the peer is
there. -/
def hears (peer : Peer) : Bool :=
  peer.io.connection.state == .connected && peer.nextFrame.any Frame.isSign

theorem hears_of_none (h : peer.nextFrame = []) : peer.hears = false := by
  rw [hears, h, List.any_nil, Bool.and_false]

theorem hears_of_one {f : Frame} (h : peer.nextFrame = [f]) :
  peer.hears = (peer.io.connection.state == .connected && f.isSign)
  := by
  rw [hears, h, List.any_cons, List.any_nil, Bool.or_false]

/-- A connection is told of its peer while it is connected. -/
theorem refreshPeerActivity_hears (connection : Connection) (now : Int) :
  (connection.refreshPeerActivity now).state = connection.state
    ∧ (connection.refreshPeerActivity now).lastPeerActivityTime
      = if connection.state == .connected then now else connection.lastPeerActivityTime
  := by
  rw [Connection.refreshPeerActivity]
  by_cases hstate : connection.state = .connected
  · rw [if_pos hstate, if_pos (beq_iff_eq.mpr hstate)]
    exact ⟨rfl, rfl⟩
  · rw [if_neg hstate, if_neg (by simpa using hstate)]
    exact ⟨rfl, rfl⟩

theorem connection_send (run : IoRun) (data : Bytes) :
  (run.send data).connection = run.connection
  := by
  rw [IoRun.send]
  split <;> rfl

/-- The message callback knows of the peer from its frames only. -/
theorem handleMessage_hears (peer : Peer) (c : ConnId) (now : Int) (events : UInt32)
    (callers : List IoRun.Caller)
    (hopen : ¬(peer.handleMessage c now events callers).2.io.Left) :
  ¬peer.io.Left
    ∧ (peer.handleMessage c now events callers).2.io.connection.lastPeerActivityTime
      = if peer.hears then now else peer.io.connection.lastPeerActivityTime
  := by
  have hquiet : ∀ {peer' : Peer}, peer.io.Unheard peer'.io → ¬peer'.io.Left →
      peer.hears = false → ¬peer.io.Left ∧ peer'.io.connection.lastPeerActivityTime
        = if peer.hears then now else peer.io.connection.lastPeerActivityTime := by
    intro peer' hunheard hopen hnone
    rw [hnone]
    apply hunheard hopen
  rw [Peer.handleMessage] at hopen ⊢
  split at hopen
  · next hdecoding =>
    split at hopen
    · next hnext =>
      have hnone := hears_of_none (show peer.nextFrame = [] by rw [nextFrame, hdecoding, hnext])
      apply hquiet (peer.unheard_answer events callers true) hopen hnone
    · next hnext =>
      have hnone := hears_of_none (show peer.nextFrame = [] by rw [nextFrame, hdecoding, hnext])
      apply hquiet (peer.unheard_answer events callers false) hopen hnone
    · next type payload rest hnext =>
      have hone := hears_of_one (show peer.nextFrame = [⟨type, payload⟩] by
        rw [nextFrame, hdecoding, hnext])
      obtain ⟨hstate, hactivity⟩ := refreshPeerActivity_hears
        { peer.io.connection with readBuffer := rest } now
      dsimp only at hopen ⊢
      obtain ⟨heq, hrequest, hack⟩ | ⟨data, heq, hrequest, hack⟩ |
          ⟨heq, hrequest, hack⟩ := handleDecodedFrame_of_frame { peer with
        io := { peer.io with connection := { peer.io.connection with readBuffer := rest } } }
        c now type payload
      · rw [heq] at hopen ⊢
        have hnone : peer.hears = false := by
          simp [hone, Frame.isSign, hrequest, hack]
        apply hquiet (unheard_answer { peer with io := { peer.io with
          connection := { peer.io.connection with readBuffer := rest } } } events callers false)
          hopen hnone
      · have hsign : peer.hears = (peer.io.connection.state == .connected) := by
          simp [hone, Frame.isSign, hack]
        rw [heq, IoRun.Left] at hopen
        rw [heq, hsign]
        dsimp only [refreshPeerActivity] at hopen ⊢
        rw [connection_send, hstate] at hopen
        rw [connection_send]
        exact ⟨hopen, hactivity⟩
      · have hsign : peer.hears = (peer.io.connection.state == .connected) := by
          simp [hone, Frame.isSign, hrequest]
        rw [heq, IoRun.Left] at hopen
        rw [heq, hsign]
        dsimp only [refreshPeerActivity] at hopen ⊢
        rw [hstate] at hopen
        exact ⟨hopen, hactivity⟩
  · next hdecoding =>
    have hnone := hears_of_none (show peer.nextFrame = [] by rw [nextFrame, hdecoding])
    split at hopen
    · next hresult =>
      rw [if_pos hresult, hnone]
      exact ⟨hopen, rfl⟩
    · next hresult =>
      exact absurd (IoRun.left_handleClose _) hopen
  · next hdecoding =>
    have hnone := hears_of_none (show peer.nextFrame = [] by rw [nextFrame, hdecoding])
    apply hquiet (peer.unheard_answer events callers false) hopen hnone

end Peer

/-! ### The record -/

/-- A server and the clock of its process, with a record for each connection of the times at which
it was accepted and its frames came, the last one first. -/
structure Heeded where
  server : Server
  clock : Int
  heard : ConnId → List Int

namespace Heeded

open Server

/-- What a step of the connections reads from the clock. -/
def readingOf : Server.Label → Option Int
  | .io _ (.functor now _) | .message _ now | .accept _ _ now => some now
  | _ => none

/-- What is recorded in a step. -/
def heardIn (server : Server) (c : ConnId) : Server.Label → List Int
  | .accept c' fd now => if c' = c ∧ fd ∉ server.connections then [now] else []
  | .message c' now =>
    if c' = c then
      match server.peers c with
      | none => []
      | some peer => if peer.hears then [now] else []
    else
      []
  | _ => []

/-- The system, with its record; the clock never goes back. -/
def system : System Heeded Server.Label where
  Initial heeded := heeded.server.Started ∧ ∀ c, heeded.heard c = []
  Step heeded label heeded' :=
    heeded.server.Step label heeded'.server
      ∧ heeded.clock ≤ heeded'.clock ∧ (∀ now, readingOf label = some now → now = heeded'.clock)
      ∧ ∀ c, heeded'.heard c = heardIn heeded.server c label ++ heeded.heard c

variable {heeded heeded' : Heeded} {label : Server.Label}

/-- The time of the last activity is the last one in the record, which is in order. -/
structure Inv (heeded : Heeded) : Prop where
  last : ∀ c peer, heeded.server.peers c = some peer → ¬peer.io.Left →
    (heeded.heard c).head? = some peer.io.connection.lastPeerActivityTime
  sorted : ∀ c, (heeded.heard c).Pairwise (· ≥ ·)
  past : ∀ c, ∀ time ∈ heeded.heard c, time ≤ heeded.clock

/-- What is recorded in a step is one reading of the clock. -/
theorem heardIn_cases (server : Server) (c : ConnId) (label : Server.Label) :
  heardIn server c label = [] ∨ ∃ now, readingOf label = some now ∧ heardIn server c label = [now]
  := by
  cases label with
  | accept c' fd now =>
    rw [heardIn]
    split
    · exact .inr ⟨now, rfl, rfl⟩
    · exact .inl rfl
  | message c' now =>
    rw [heardIn]
    split
    · split
      · exact .inl rfl
      · split
        · exact .inr ⟨now, rfl, rfl⟩
        · exact .inl rfl
    · exact .inl rfl
  | _ => exact .inl rfl

/-- A connection that is still open behind a step has just been heard of, or it was open before
and nothing was heard of it. -/
def Follows (server : Server) (c : ConnId) (heard : List Int) (peer' : Peer) : Prop :=
  heard = [peer'.io.connection.lastPeerActivityTime]
    ∨ heard = [] ∧ ∃ peer, server.peers c = some peer ∧ ¬peer.io.Left
      ∧ peer'.io.connection.lastPeerActivityTime = peer.io.connection.lastPeerActivityTime

theorem follows_of_same {server : Server} {c : ConnId} {peer : Peer}
    (hpeer : server.peers c = some peer) (hopen : ¬peer.io.Left) :
  Follows server c [] peer
  := .inr ⟨rfl, peer, hpeer, hopen, rfl⟩

/-- Only one connection changes. -/
theorem follows_of_setPeer {server server' : Server} {c c' : ConnId} {peer peer' : Peer}
    {heard : List Int}
    (hpeers : server'.peers = Function.update server.peers c' (some peer'))
    (hpeer : server'.peers c = some peer) (hopen : ¬peer.io.Left) (hnone : c ≠ c' → heard = [])
    (hfollows : c = c' → ¬peer'.io.Left → Follows server c heard peer') :
  Follows server c heard peer
  := by
  rw [hpeers, Function.update_apply] at hpeer
  split at hpeer
  · next heq =>
    cases hpeer
    apply hfollows heq hopen
  · next hne =>
    rw [hnone hne]
    apply follows_of_same hpeer hopen

theorem step_follows {server server' : Server} (hstep : server.Step label server') {c : ConnId}
    {peer : Peer} (hpeer : server'.peers c = some peer) (hopen : ¬peer.io.Left) :
  Follows server c (heardIn server c label) peer
  := by
  cases label with
  | io c' label =>
    obtain ⟨peer₁, io, hpeer₁, hof, hio, rfl⟩ := hstep
    apply follows_of_setPeer rfl hpeer hopen fun _ => rfl
    rintro rfl hopen'
    have hrefresh : ∀ now, label ≠ .refreshPeerActivity now := by
      rintro now rfl
      cases hof
    obtain ⟨hwas, hactivity⟩ := IoRun.step_unheard hrefresh hio hopen'
    exact .inr ⟨rfl, peer₁, hpeer₁, hwas, hactivity⟩
  | message c' now =>
    obtain ⟨peer₁, events, callers, hpeer₁, -, -, rfl⟩ := hstep
    apply follows_of_setPeer rfl hpeer hopen fun hne => if_neg hne.symm
    rintro rfl hopen'
    obtain ⟨hwas, hactivity⟩ := peer₁.handleMessage_hears c now events callers hopen'
    rw [if_pos rfl, hpeer₁]
    dsimp only
    split
    · next hheard =>
      rw [if_pos hheard] at hactivity
      left
      rw [hactivity]
    · next hheard =>
      rw [if_neg hheard] at hactivity
      exact .inr ⟨rfl, peer₁, hpeer₁, hwas, hactivity⟩
  | closed c' =>
    obtain ⟨peer₁, callers, hpeer₁, -, -, rfl⟩ := hstep
    apply follows_of_setPeer rfl hpeer hopen fun _ => rfl
    rintro rfl hopen'
    exact .inr ⟨rfl, peer₁, hpeer₁, hopen', rfl⟩
  | accept c' fd now =>
    obtain ⟨-, rfl⟩ := hstep
    rw [heardIn]
    rw [handleAccept] at hpeer
    split at hpeer
    · next hmem =>
      rw [if_neg fun h => h.2 hmem]
      apply follows_of_same hpeer hopen
    · next hmem =>
      apply follows_of_setPeer rfl hpeer hopen fun hne => if_neg fun h => hne h.1.symm
      rintro rfl -
      rw [if_pos ⟨rfl, hmem⟩]
      exact .inl rfl
  | task answers token now =>
    obtain ⟨task, tasks, -, rfl⟩ := hstep
    cases task with
    | frame c' type payload => apply follows_of_same hpeer hopen
    | removeConnection c' =>
      rw [runTask, removeConnectionInLoop] at hpeer
      split at hpeer
      · apply follows_of_same hpeer hopen
      next peer₁ hpeer₁ =>
      split at hpeer
      · apply follows_of_setPeer rfl hpeer hopen fun _ => rfl
        rintro rfl hopen'
        exact .inr ⟨rfl, peer₁, hpeer₁, hopen', rfl⟩
      · apply follows_of_same hpeer hopen
  | tick answers expirations =>
    obtain rfl := hstep
    apply follows_of_same hpeer hopen
  | sessionTimeouts answers now =>
    obtain rfl := hstep
    apply follows_of_same hpeer hopen
  | reorder =>
    obtain ⟨service, connections, -, -, rfl⟩ := hstep
    apply follows_of_same hpeer hopen

theorem step_inv (h : heeded.Inv) (hstep : system.Step heeded label heeded') :
  heeded'.Inv
  := by
  obtain ⟨hserver, hclock, hreading, hheard⟩ := hstep
  have hpast : ∀ c, ∀ time ∈ heeded.heard c, time ≤ heeded'.clock :=
    fun c time hmem => (h.past c time hmem).trans hclock
  constructor
  · intro c peer' hpeer' hopen
    rw [hheard]
    obtain heq | ⟨heq, peer, hpeer, hopen', hactivity⟩ := step_follows hserver hpeer' hopen
    · rw [heq]
      rfl
    · rw [heq, hactivity]
      apply h.last c peer hpeer hopen'
  · intro c
    rw [hheard]
    obtain heq | ⟨now, hnow, heq⟩ := heardIn_cases heeded.server c label
    · rw [heq]
      apply h.sorted c
    · rw [heq, hreading now hnow]
      apply List.pairwise_cons.mpr ⟨hpast c, h.sorted c⟩
  · intro c time hmem
    rw [hheard] at hmem
    obtain heq | ⟨now, hnow, heq⟩ := heardIn_cases heeded.server c label
    · rw [heq] at hmem
      apply hpast c time hmem
    · rw [heq, hreading now hnow] at hmem
      obtain rfl | hmem := List.mem_cons.mp hmem
      · apply le_refl
      · apply hpast c time hmem

theorem inv_of_reachable (h : system.Reachable heeded) : heeded.Inv := by
  apply h.invariant
  · rintro heeded ⟨⟨service, -, hserver⟩, hheard⟩
    constructor
    · intro c peer hpeer
      rw [hserver] at hpeer
      cases hpeer
    · intro c
      rw [hheard]
      apply List.Pairwise.nil
    · intro c time hmem
      rw [hheard] at hmem
      cases hmem
  · intro heeded label heeded' hinv _ hstep
    apply step_inv hinv hstep

/-! ### The checks -/

/-- All that was heard of a connection is as old as the last of it. -/
theorem Inv.silent_iff (h : heeded.Inv) {c : ConnId} {peer : Peer}
    (hpeer : heeded.server.peers c = some peer) (hopen : ¬peer.io.Left) (timeout now : Int) :
  (∀ time ∈ heeded.heard c, timeout ≤ now - time)
    ↔ timeout ≤ now - peer.io.connection.lastPeerActivityTime
  := by
  obtain ⟨earlier, hheard⟩ := List.head?_eq_some_iff.mp (h.last c peer hpeer hopen)
  have hsorted := h.sorted c
  rw [hheard] at hsorted ⊢
  obtain ⟨hlast, -⟩ := List.pairwise_cons.mp hsorted
  constructor
  · intro hall
    apply hall _ List.mem_cons_self
  · intro hlate time hmem
    obtain rfl | hmem := List.mem_cons.mp hmem
    · exact hlate
    · have := hlast time hmem
      omega

/-- A check for a timeout closes a connection exactly when it was accepted and all its frames came
at least as long ago as the timeout, and changes nothing otherwise. -/
theorem silence_of_reachable (h : system.Reachable heeded) {c : ConnId} {peer : Peer}
    (hpeer : heeded.server.peers c = some peer) (hstate : peer.io.connection.state = .connected)
    {timeout : Int} {functors : List IoRun.Functor}
    (hfunctors : peer.io.functors = .checkTimeoutInLoop timeout :: functors) {now : Int}
    {added : Bool} {server' : Server}
    (hstep : heeded.server.Step (.io c (.functor now added)) server') :
  ∃ peer', server'.peers c = some peer'
    ∧ if ∀ time ∈ heeded.heard c, timeout ≤ now - time then
        peer'.io.connection.state = .disconnecting
      else
        peer'.io = { peer.io with functors }
  := by
  have hinv := inv_of_reachable h
  have hopen : ¬peer.io.Left := by
    rw [IoRun.Left, hstate]
    simp
  obtain ⟨peer₁, io, hpeer₁, -, ⟨-, functor, functors', hfunctors', rfl⟩, rfl⟩ := hstep
  rw [hpeer] at hpeer₁
  cases hpeer₁
  rw [hfunctors] at hfunctors'
  cases hfunctors'
  refine ⟨_, Function.update_self _ _ _, ?_⟩
  have hsilent := hinv.silent_iff hpeer hopen timeout now
  dsimp only
  rw [IoRun.runFunctor, IoRun.checkTimeoutInLoop, Connection.timedOut]
  by_cases hlate : timeout ≤ now - peer.io.connection.lastPeerActivityTime
  · rw [if_pos (hsilent.mpr hlate), if_pos (by simp [hstate, hlate])]
    exact IoRun.state_handleClose hopen
  · rw [if_neg fun hall => hlate (hsilent.mp hall), if_neg (by simp [hlate])]

/-! ### A client that is silent -/

/-- The server is reached with the clock at 0, when the connection 7 was accepted. -/
def Accepted (server : Server) : Prop :=
  system.Reachable ⟨server, 0, fun c => if c = 7 then [0] else []⟩

/-- The connection acts while the clock stands still. -/
theorem Accepted.io {peer : Peer} {io : IoRun} (h : Accepted (serving opened peer []))
    (label : IoRun.Label) (hof : OfConnection label) (hstep : peer.io.Step label io)
    (hreading : ∀ now, readingOf (.io 7 label) = some now → now = 0) :
  Accepted (serving opened { peer with io } [])
  := by
  have hserver : (serving opened peer []).Step (.io 7 label)
      (serving opened { peer with io } []) := by
    refine ⟨peer, io, rfl, hof, hstep, ?_⟩
    rw [serving, serving, setPeer, Function.update_idem]
  apply h.step (ℓ := Server.Label.io 7 label) trivial
  exact ⟨hserver, le_refl _, hreading, fun _ => rfl⟩

/-- The connection is to check for a timeout of 30. -/
def checked : Peer where
  fd := 5
  io := ⟨(Connection.new 0).establish, Connection.readEvents, .ready, [],
    [.checkTimeoutInLoop 30], [], [], false, [], [], 0, []⟩
  decoding := .next

theorem checked_accepted : Accepted (serving opened checked []) := by
  have hstarted : system.Reachable ⟨⟨fun _ => none, ∅, [], opened, []⟩, 0, fun _ => []⟩ := by
    refine .initial ⟨⟨opened, ?_, rfl⟩, fun _ => rfl⟩
    apply System.ReachableBy.step (ℓ := .addRoom 1 2) _ (.inl ⟨1, 2, rfl⟩) rfl
    exact .initial ⟨30000, rfl⟩
  have haccepted : Accepted (serving opened (newPeer 5 0) []) := by
    apply hstarted.step (ℓ := Server.Label.accept 7 5 0) trivial
    refine ⟨⟨rfl, rfl⟩, le_refl _, by simp [readingOf], fun c => ?_⟩
    by_cases hc : c = 7
    · rw [hc]
      rfl
    · simp [heardIn, hc, Ne.symm hc]
  have hswap := haccepted.io .doPendingFunctors trivial ⟨⟨rfl, rfl⟩, rfl, rfl⟩ (by simp [readingOf])
  have hconnected := hswap.io (.functor 0 true) trivial ⟨⟨rfl, rfl⟩, _, _, rfl, rfl⟩
    (by simp [readingOf])
  have hposted := hconnected.io (.queueInLoop (.checkTimeoutInLoop 30)) (.inr ⟨30, rfl⟩)
    ⟨rfl, rfl⟩ (by simp [readingOf])
  apply hposted.io .doPendingFunctors trivial ⟨⟨rfl, rfl⟩, rfl, rfl⟩ (by simp [readingOf])

theorem checked_silence :
  ∃ server', (serving opened checked []).Step (.io 7 (.functor 40 false)) server'
    ∧ ∃ peer', server'.peers 7 = some peer' ∧ peer'.io.connection.state = .disconnecting
  := by
  have hstep : (serving opened checked []).Step (.io 7 (.functor 40 false)) _ :=
    ⟨checked, _, rfl, trivial, ⟨⟨rfl, rfl⟩, _, _, rfl, rfl⟩, rfl⟩
  refine ⟨_, hstep, ?_⟩
  obtain ⟨peer', hpeer', hcloses⟩ := silence_of_reachable checked_accepted rfl rfl rfl hstep
  rw [if_pos (by simp)] at hcloses
  exact ⟨peer', hpeer', hcloses⟩

end Heeded

end RoomServer
