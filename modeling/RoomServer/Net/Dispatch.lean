import RoomServer.Net.FdTable
import RoomServer.Net.TcpServer

/-!
# The events of a server

The connections of a server are spread over its loops.  A wait of a loop reports descriptors,
and the loop looks up the callback of each when its turn comes, behind the callbacks before it;
meanwhile connections are closed and accepted, and the kernel may give the descriptor of one that
was closed to the next.

Every report reaches the connection it was made for, as no file is closed before all the reports
of its loop are handled.  The callbacks and the interest list always agree with the connections,
so a new connection never finds the callback of an old one in its place, and the events of a
connection can always be changed.
-/

namespace RoomServer

open Connection

/-- A server, and the descriptors of its loops: those of the pool and the base loop. -/
structure Serving where
  server : TcpServer
  tables : Option Nat → FdTable

namespace Serving

open TcpServer (Peer)

/-- What the loop has left when a connection is no longer registered. -/
def unregister (serving : Serving) (peer : Peer) : Option Nat → FdTable :=
  if peer.io.connection.registered then
    Function.update serving.tables peer.loop ((serving.tables peer.loop).removeFd peer.fd).2
  else
    serving.tables

/-- The descriptors behind a request of a connection. -/
def control (serving : Serving) (c : ConnId) (peer : Peer) (room : Bool) :
    Option Request → Option Nat → FdTable
  | some (.add _) =>
    Function.update serving.tables peer.loop
      ((serving.tables peer.loop).addFd peer.fd c room).2
  | some .destroy => fun loop => (serving.unregister peer loop).forget c
  | _ => serving.tables

/-- What the loop returns to a request of a connection. -/
def Answers (serving : Serving) (c : ConnId) (peer : Peer) (room : Bool) : Option Request → Prop
  | some (.add added) => added = ((serving.tables peer.loop).addFd peer.fd c room).1
  | some (.update success) => success = (serving.tables peer.loop).updateFd peer.fd
  | _ => True

/-- The loop hands events to its connections by itself, and runs their functors behind them. -/
def Paced (serving : Serving) (peer : Peer) : IoRun.Label → Prop
  | .event _ _ => False
  | .doPendingFunctors | .functor _ _ => (serving.tables peer.loop).phase = .functors
  | _ => True

/-- The thread of the loop is back in the loop. -/
def AtLoop (serving : Serving) (loop : Option Nat) : Prop :=
  ∀ c peer, serving.server.peers c = some peer → peer.loop = loop → peer.io.AtLoop

/-- No connection has a functor left of those the loop has taken. -/
def Done (serving : Serving) (loop : Option Nat) : Prop :=
  ∀ c peer, serving.server.peers c = some peer → peer.loop = loop → peer.io.functors = []

def setTable (serving : Serving) (loop : Option Nat) (table : FdTable) : Serving :=
  { serving with tables := Function.update serving.tables loop table }

/-- A loop waits, handles a report, goes on to its functors (which it does at once when it was
asked to quit) and comes back to its wait; a connection acts, for which the kernel may have room
in its epoll; the server acts. -/
inductive Label where
  | wait (loop : Option Nat) (reports : List Report)
  | dispatch (loop : Option Nat) (reads : List ReadOutcome)
  | doPendingFunctors (loop : Option Nat) (quit : Bool)
  | again (loop : Option Nat)
  | io (c : ConnId) (label : IoRun.Label) (room : Bool)
  | server (label : TcpServer.Label)

/-- A step of the server that is not one of a connection. -/
def IsServers : TcpServer.Label → Prop
  | .io _ _ => False
  | _ => True

def Step (serving : Serving) (label : Label) (serving' : Serving) : Prop :=
  match label with
  | .wait loop reports =>
    serving.AtLoop loop ∧ (serving.tables loop).phase = .waiting
      ∧ (∀ report ∈ reports, (serving.tables loop).watched report.fd = some report.owner)
      ∧ serving' = serving.setTable loop
        { serving.tables loop with phase := .dispatching, reports }
  | .dispatch loop reads =>
    serving.AtLoop loop ∧ (serving.tables loop).phase = .dispatching
      ∧ ∃ report reports, (serving.tables loop).reports = report :: reports
        ∧ serving'.tables = Function.update serving.tables loop
          { serving.tables loop with reports }
        ∧ match (serving.tables loop).callbacks.lookup report.fd with
          | none => serving'.server = serving.server
          | some c => serving.server.Step (.io c (.event report.events reads)) serving'.server
  | .doPendingFunctors loop quit =>
    serving.AtLoop loop ∧ (serving.tables loop).phase = .dispatching
      ∧ ((serving.tables loop).reports = [] ∨ quit)
      ∧ serving' = serving.setTable loop
        { serving.tables loop with phase := .functors, reports := [] }
  | .again loop =>
    serving.AtLoop loop ∧ (serving.tables loop).phase = .functors ∧ serving.Done loop
      ∧ serving' = serving.setTable loop { serving.tables loop with phase := .waiting }
  | .io c label room =>
    ∃ peer, serving.server.peers c = some peer ∧ serving.Paced peer label
      ∧ serving.Answers c peer room (peer.io.request label)
      ∧ serving.server.Step (.io c label) serving'.server
      ∧ serving'.tables = serving.control c peer room (peer.io.request label)
  | .server label =>
    IsServers label ∧ serving.server.Step label serving'.server
      ∧ serving'.tables = serving.tables

/-- The loops of a server that was just started have no connections. -/
def system : System Serving Label where
  Initial serving :=
    TcpServer.system.Initial serving.server ∧ serving.tables = fun _ => .empty
  Step := Step

variable {serving serving' : Serving}

/-- A server with its loops is a server. -/
theorem reachable_server (h : system.Reachable serving) :
  TcpServer.system.Reachable serving.server
  := by
  apply System.ReachableBy.map Serving.server _ _ h
  · intro serving hinit
    exact .initial hinit.1
  · intro serving label serving' hstep
    have hone : ∀ label, serving.server.Step label serving'.server →
        TcpServer.system.Leads serving.server serving'.server :=
      fun label hstep => .step .refl hstep
    cases label with
    | wait loop reports =>
      obtain ⟨-, -, -, rfl⟩ := hstep
      exact .refl
    | dispatch loop reads =>
      obtain ⟨-, -, report, reports, -, -, hserver⟩ := hstep
      split at hserver
      · rw [hserver]
        exact .refl
      · apply hone _ hserver
    | doPendingFunctors loop quit =>
      obtain ⟨-, -, -, rfl⟩ := hstep
      exact .refl
    | again loop =>
      obtain ⟨-, -, -, rfl⟩ := hstep
      exact .refl
    | io c label room =>
      obtain ⟨peer, -, -, -, hserver, -⟩ := hstep
      apply hone _ hserver
    | server label => apply hone label hstep.2.1

/-! ### The invariant -/

/-- The connection has its descriptor registered with the loop. -/
def Registered (serving : Serving) (loop : Option Nat) (fd : Nat) (c : ConnId) : Prop :=
  ∃ peer, serving.server.peers c = some peer ∧ peer.loop = loop ∧ peer.fd = fd
    ∧ peer.io.connection.registered = true

/-- No two open files share a descriptor.  The callbacks of each loop and the interest list of
its epoll are those of the connections registered with it, and what waits to be handled was
reported for them. -/
structure Inv (serving : Serving) : Prop where
  holds : ∀ c peer, serving.server.peers c = some peer → peer.io.Holds
  distinct : ∀ c c' peer peer', serving.server.peers c = some peer →
    serving.server.peers c' = some peer' → peer.fd = peer'.fd →
    peer.io.connection.close = false → peer'.io.connection.close = false → c = c'
  entries : ∀ loop fd c,
    (serving.tables loop).callbacks.lookup fd = some c ↔ serving.Registered loop fd c
  watched : ∀ loop fd, (serving.tables loop).watched fd = (serving.tables loop).callbacks.lookup fd
  reported : ∀ loop, ∀ report ∈ (serving.tables loop).reports,
    (serving.tables loop).callbacks.lookup report.fd = some report.owner
  handled : ∀ loop, (serving.tables loop).phase ≠ .dispatching →
    (serving.tables loop).reports = []

theorem inv_of_initial (h : system.Initial serving) :
  serving.Inv
  := by
  obtain ⟨server, tables⟩ := serving
  obtain ⟨⟨threadCount, closedCallback, rfl⟩, rfl⟩ := h
  constructor
  · intro c peer hpeer
    cases hpeer
  · intro c c' peer peer' hpeer
    cases hpeer
  · intro loop fd c
    constructor
    · intro hlookup
      cases hlookup
    · rintro ⟨peer, hpeer, -⟩
      cases hpeer
  · intro loop fd
    rfl
  · intro loop report hmem
    cases hmem
  · intro loop _
    rfl

/-- A connection keeps its descriptor, its loop and its registration. -/
structure SameFd (peer peer' : Peer) : Prop where
  fd : peer'.fd = peer.fd
  loop : peer'.loop = peer.loop
  io : peer.io.SameFd peer'.io

theorem SameFd.refl (peer : Peer) : SameFd peer peer :=
  ⟨rfl, rfl, IoRun.sameFd_of_same rfl rfl rfl .inl⟩

/-- All connections keep their descriptors. -/
def Keeps (server server' : TcpServer) : Prop :=
  ∀ c, Option.Rel SameFd (server.peers c) (server'.peers c)

theorem keeps_of_eq {server server' : TcpServer} (h : server'.peers = server.peers) :
  Keeps server server'
  := by
  intro c
  rw [h]
  cases server.peers c with
  | none => exact .none
  | some peer => exact .some (SameFd.refl peer)

theorem keeps_of_one {server server' : TcpServer} {c : ConnId} {peer peer' : Peer}
    (hpeer : server.peers c = some peer) (hsame : SameFd peer peer')
    (hpeers : ∀ c', server'.peers c' = if c' = c then some peer' else server.peers c') :
  Keeps server server'
  := by
  intro c'
  rw [hpeers]
  split
  · next heq =>
    rw [heq, hpeer]
    exact .some hsame
  · cases server.peers c' with
    | none => exact .none
    | some peer => exact .some (SameFd.refl peer)

/-- The connections keep their descriptors, and so do the tables of the loops. -/
theorem Inv.keep (h : serving.Inv) (hkeeps : Keeps serving.server serving'.server)
    (hcallbacks : ∀ loop, (serving'.tables loop).callbacks = (serving.tables loop).callbacks)
    (hwatched : ∀ loop, (serving'.tables loop).watched = (serving.tables loop).watched)
    (hreported : ∀ loop, ∀ report ∈ (serving'.tables loop).reports,
      (serving.tables loop).callbacks.lookup report.fd = some report.owner)
    (hhandled : ∀ loop, (serving'.tables loop).phase ≠ .dispatching →
      (serving'.tables loop).reports = []) :
  serving'.Inv
  := by
  constructor
  · intro c peer' hpeer'
    obtain ⟨peer, hpeer, hsame⟩ := Option.exists_left_of_rel (hkeeps c) hpeer'
    apply (h.holds c peer hpeer).same hsame.io
  · intro c₁ c₂ peer₁ peer₂ hpeer₁ hpeer₂ hfd hclose₁ hclose₂
    obtain ⟨peer₁', hpeer₁', hsame₁⟩ := Option.exists_left_of_rel (hkeeps c₁) hpeer₁
    obtain ⟨peer₂', hpeer₂', hsame₂⟩ := Option.exists_left_of_rel (hkeeps c₂) hpeer₂
    apply h.distinct c₁ c₂ peer₁' peer₂' hpeer₁' hpeer₂'
    · rw [← hsame₁.fd, ← hsame₂.fd, hfd]
    · rw [← hsame₁.io.close, hclose₁]
    · rw [← hsame₂.io.close, hclose₂]
  · intro loop fd c
    rw [hcallbacks, h.entries]
    constructor
    · rintro ⟨peer, hpeer, hloop, hfd, hregistered⟩
      obtain ⟨peer', hpeer', hsame⟩ := Option.exists_right_of_rel (hkeeps c) hpeer
      use peer', hpeer', hsame.loop.trans hloop, hsame.fd.trans hfd
      rw [hsame.io.registered, hregistered]
    · rintro ⟨peer', hpeer', hloop, hfd, hregistered⟩
      obtain ⟨peer, hpeer, hsame⟩ := Option.exists_left_of_rel (hkeeps c) hpeer'
      use peer, hpeer, hsame.loop.symm.trans hloop, hsame.fd.symm.trans hfd
      rw [← hsame.io.registered, hregistered]
  · intro loop fd
    rw [hcallbacks, hwatched, h.watched]
  · intro loop report hmem
    rw [hcallbacks]
    apply hreported loop report hmem
  · exact hhandled

/-- Only the reports of one loop change. -/
theorem Inv.turn (h : serving.Inv) (hkeeps : Keeps serving.server serving'.server)
    {loop : Option Nat} {phase : Phase} {reports : List Report}
    (htables : serving'.tables = Function.update serving.tables loop
      { serving.tables loop with phase, reports })
    (hreported : ∀ report ∈ reports,
      (serving.tables loop).callbacks.lookup report.fd = some report.owner)
    (hhandled : phase ≠ .dispatching → reports = []) :
  serving'.Inv
  := by
  have htable : ∀ loop', serving'.tables loop' = if loop' = loop then
      { serving.tables loop with phase, reports } else serving.tables loop' := by
    intro loop'
    rw [htables, Function.update_apply]
  apply h.keep hkeeps
  · intro loop'
    rw [htable]
    split
    · next heq => rw [heq]
    · rfl
  · intro loop'
    rw [htable]
    split
    · next heq => rw [heq]
    · rfl
  · intro loop'
    rw [htable]
    split
    · next heq =>
      rw [heq]
      exact hreported
    · apply h.reported loop'
  · intro loop'
    rw [htable]
    split
    · exact hhandled
    · apply h.handled loop'

/-! ### One connection -/

section One

variable {c : ConnId} {peer : Peer} {io : IoRun}

/-- The connections are the same but for one. -/
def Changes (serving : Serving) (c : ConnId) (peer : Peer) (serving' : Serving) : Prop :=
  ∀ c', serving'.server.peers c' = if c' = c then some peer else serving.server.peers c'

theorem Changes.registered (h : serving.Changes c peer serving') (loop : Option Nat) (fd : Nat)
    (c' : ConnId) :
  serving'.Registered loop fd c' ↔ if c' = c then
      peer.loop = loop ∧ peer.fd = fd ∧ peer.io.connection.registered = true
    else
      serving.Registered loop fd c'
  := by
  rw [Registered, h]
  split
  · constructor
    · rintro ⟨peer', hpeer', hregistered⟩
      cases hpeer'
      exact hregistered
    · intro hregistered
      exact ⟨peer, rfl, hregistered⟩
  · rfl

theorem Inv.holds_one (h : serving.Inv) (hchanges : serving.Changes c peer serving')
    (hholds : peer.io.Holds) :
  ∀ c peer, serving'.server.peers c = some peer → peer.io.Holds
  := by
  intro c' peer' hpeer'
  rw [hchanges] at hpeer'
  split at hpeer'
  · cases hpeer'
    exact hholds
  · apply h.holds c' peer' hpeer'

/-- A connection that keeps its descriptor open, or has it closed, shares it with no other. -/
theorem Inv.distinct_one (h : serving.Inv) (hchanges : serving.Changes c peer serving')
    (hdistinct : ∀ c' peer', c' ≠ c → serving.server.peers c' = some peer' →
      peer.fd = peer'.fd → peer.io.connection.close = false →
      peer'.io.connection.close ≠ false) :
  ∀ c c' peer peer', serving'.server.peers c = some peer → serving'.server.peers c' = some peer' →
    peer.fd = peer'.fd → peer.io.connection.close = false →
    peer'.io.connection.close = false → c = c'
  := by
  intro c₁ c₂ peer₁ peer₂ hpeer₁ hpeer₂ hfd hclose₁ hclose₂
  rw [hchanges] at hpeer₁ hpeer₂
  split at hpeer₁ <;> split at hpeer₂
  · next heq₁ heq₂ => rw [heq₁, heq₂]
  · next heq₁ hne₂ =>
    cases hpeer₁
    exact absurd hclose₂ (hdistinct c₂ peer₂ hne₂ hpeer₂ hfd hclose₁)
  · next hne₁ heq₂ =>
    cases hpeer₂
    exact absurd hclose₁ (hdistinct c₁ peer₁ hne₁ hpeer₁ hfd.symm hclose₂)
  · apply h.distinct c₁ c₂ peer₁ peer₂ hpeer₁ hpeer₂ hfd hclose₁ hclose₂

/-- The connection had the descriptor open before. -/
theorem Inv.distinct_of_open (h : serving.Inv) (hpeer : serving.server.peers c = some peer)
    (hopen : io.connection.close = false → peer.io.connection.close = false) (c' : ConnId)
    (peer' : Peer) (hne : c' ≠ c) (hpeer' : serving.server.peers c' = some peer')
    (hfd : peer.fd = peer'.fd) (hclose : io.connection.close = false) :
  peer'.io.connection.close ≠ false
  := by
  intro hclose'
  apply hne
  symm
  apply h.distinct c c' peer peer' hpeer hpeer' hfd (hopen hclose) hclose'

/-- One connection changes, and so does the entry of its descriptor with its loop. -/
theorem Inv.move (h : serving.Inv) (hpeer : serving.server.peers c = some peer)
    (hchanges : serving.Changes c { peer with io } serving') (hholds : io.Holds)
    (hopen : io.connection.close = false → peer.io.connection.close = false)
    {entry : Option ConnId}
    (hlookup : ∀ loop fd, (serving'.tables loop).callbacks.lookup fd
      = if loop = peer.loop ∧ fd = peer.fd then entry
        else (serving.tables loop).callbacks.lookup fd)
    (hwatched : ∀ loop fd, (serving'.tables loop).watched fd
      = if loop = peer.loop ∧ fd = peer.fd then entry else (serving.tables loop).watched fd)
    (hentry : ∀ c', entry = some c' ↔ serving'.Registered peer.loop peer.fd c')
    (hreports : ∀ loop, (serving'.tables loop).reports = (serving.tables loop).reports
      ∧ (serving'.tables loop).phase = (serving.tables loop).phase)
    (hreported : ∀ report ∈ (serving.tables peer.loop).reports, report.fd ≠ peer.fd) :
  serving'.Inv
  := by
  constructor
  · apply h.holds_one hchanges hholds
  · apply h.distinct_one hchanges
    apply h.distinct_of_open hpeer hopen
  · intro loop fd c'
    rw [hlookup]
    split
    · next hat =>
      rw [hat.1, hat.2]
      apply hentry c'
    · next hat =>
      rw [h.entries, hchanges.registered]
      split
      · next heq =>
        subst heq
        constructor
        · rintro ⟨peer', hpeer', hloop, hfd, -⟩
          rw [hpeer] at hpeer'
          cases hpeer'
          exact absurd ⟨hloop.symm, hfd.symm⟩ hat
        · rintro ⟨hloop, hfd, -⟩
          exact absurd ⟨hloop.symm, hfd.symm⟩ hat
      · rfl
  · intro loop fd
    rw [hlookup, hwatched, h.watched]
  · intro loop report hmem
    rw [(hreports loop).1] at hmem
    rw [hlookup, if_neg]
    · apply h.reported loop report hmem
    · rintro ⟨rfl, hfd⟩
      apply hreported report hmem hfd
  · intro loop hphase
    rw [(hreports loop).2] at hphase
    rw [(hreports loop).1]
    apply h.handled loop hphase

/-- A connection that is established is registered with its loop. -/
theorem Inv.add (h : serving.Inv) {room : Bool} (hpeer : serving.server.peers c = some peer)
    (hholds : io.Holds) (hio : io.connection = peer.io.connection.establish)
    (hadded : ((serving.tables peer.loop).addFd peer.fd c room).1 = true)
    (hchanges : serving.Changes c { peer with io } serving')
    (htables : serving'.tables = Function.update serving.tables peer.loop
      ((serving.tables peer.loop).addFd peer.fd c room).2) :
  serving'.Inv
  := by
  obtain ⟨hfree, htable⟩ := FdTable.addFd_eq_true hadded
  have hself : serving'.tables peer.loop = { serving.tables peer.loop with
      callbacks := (serving.tables peer.loop).callbacks.insert peer.fd c
      watched := Function.update (serving.tables peer.loop).watched peer.fd (some c) } := by
    rw [htables, Function.update_self, htable]
  have hother : ∀ loop, loop ≠ peer.loop → serving'.tables loop = serving.tables loop := by
    intro loop hne
    rw [htables, Function.update_of_ne hne]
  apply h.move hpeer hchanges hholds
  · rw [hio]
    exact id
  · intro loop fd
    by_cases hloop : loop = peer.loop
    · rw [hloop, hself]
      simp only [true_and]
      apply AList.lookup_insert_eq_ite
    · rw [hother loop hloop, if_neg fun hat => hloop hat.1]
  · intro loop fd
    by_cases hloop : loop = peer.loop
    · rw [hloop, hself]
      simp only [true_and]
      apply Function.update_apply
    · rw [hother loop hloop, if_neg fun hat => hloop hat.1]
  · intro c'
    rw [hchanges.registered]
    split
    · next heq =>
      rw [heq, hio]
      exact ⟨fun _ => ⟨rfl, rfl, rfl⟩, fun _ => rfl⟩
    · next hne =>
      rw [← h.entries, hfree]
      exact ⟨fun heq => absurd (Option.some.inj heq).symm hne, fun heq => nomatch heq⟩
  · intro loop
    by_cases hloop : loop = peer.loop
    · rw [hloop, hself]
      exact ⟨rfl, rfl⟩
    · rw [hother loop hloop]
      exact ⟨rfl, rfl⟩
  · intro report hmem hfd
    have hlookup := h.reported peer.loop report hmem
    rw [hfd, hfree] at hlookup
    cases hlookup

theorem Inv.registered_iff (h : serving.Inv) (hpeer : serving.server.peers c = some peer)
    (loop : Option Nat) (fd : Nat) :
  (serving.tables loop).callbacks.lookup fd = some c
    ↔ loop = peer.loop ∧ fd = peer.fd ∧ peer.io.connection.registered = true
  := by
  rw [h.entries]
  constructor
  · rintro ⟨peer', hpeer', hloop, hfd, hregistered⟩
    rw [hpeer] at hpeer'
    cases hpeer'
    exact ⟨hloop.symm, hfd.symm, hregistered⟩
  · rintro ⟨rfl, rfl, hregistered⟩
    exact ⟨peer, hpeer, rfl, rfl, hregistered⟩

/-- Behind the removal of a connection its descriptor has no entry. -/
theorem Inv.unregister (h : serving.Inv) (hpeer : serving.server.peers c = some peer)
    (loop : Option Nat) :
  ((serving.unregister peer loop).reports = (serving.tables loop).reports
      ∧ (serving.unregister peer loop).phase = (serving.tables loop).phase)
    ∧ ∀ fd, (serving.unregister peer loop).watched fd
        = (serving.unregister peer loop).callbacks.lookup fd
      ∧ (serving.unregister peer loop).callbacks.lookup fd
        = if loop = peer.loop ∧ fd = peer.fd ∧ peer.io.connection.registered = true then none
          else (serving.tables loop).callbacks.lookup fd
  := by
  rw [Serving.unregister]
  split
  · next hregistered =>
    have hlookup : (serving.tables peer.loop).callbacks.lookup peer.fd = some c :=
      (h.registered_iff hpeer _ _).mpr ⟨rfl, rfl, hregistered⟩
    have hwatched := (h.watched peer.loop peer.fd).trans hlookup
    rw [FdTable.removeFd_eq hlookup hwatched, Function.update_apply]
    split
    · next heq =>
      subst heq
      use ⟨rfl, rfl⟩
      intro fd
      rw [AList.lookup_erase_eq_ite]
      simp only [true_and, and_true, hregistered]
      rw [Function.update_apply, h.watched]
    · next hne =>
      use ⟨rfl, rfl⟩
      intro fd
      use h.watched loop fd
      rw [if_neg fun hat => hne hat.1]
  · next hregistered =>
    use ⟨rfl, rfl⟩
    intro fd
    use h.watched loop fd
    rw [if_neg fun hat => hregistered hat.2.2]

/-- A connection that is destroyed leaves nothing in any loop, and its loop is not at its
reports. -/
theorem Inv.destroy (h : serving.Inv) (hpeer : serving.server.peers c = some peer)
    (hholds : io.Holds) (hregistered : io.connection.registered = false)
    (hclose : io.connection.close = true)
    (hphase : (serving.tables peer.loop).phase ≠ .dispatching)
    (hchanges : serving.Changes c { peer with io } serving')
    (htables : serving'.tables = fun loop => (serving.unregister peer loop).forget c) :
  serving'.Inv
  := by
  have htable : ∀ loop, serving'.tables loop = serving.unregister peer loop := by
    intro loop
    rw [htables]
    apply FdTable.forget_eq
    intro fd hwatched
    obtain ⟨heq, hlookup⟩ := (h.unregister hpeer loop).2 fd
    rw [heq, hlookup] at hwatched
    split at hwatched
    · cases hwatched
    · next hat => apply hat ((h.registered_iff hpeer loop fd).mp hwatched)
  -- what is found at the descriptor when the connection was not registered
  let entry := if peer.io.connection.registered = true then none
    else (serving.tables peer.loop).callbacks.lookup peer.fd
  have hlookup : ∀ loop fd, (serving'.tables loop).callbacks.lookup fd
      = if loop = peer.loop ∧ fd = peer.fd then entry
        else (serving.tables loop).callbacks.lookup fd := by
    intro loop fd
    rw [htable, ((h.unregister hpeer loop).2 fd).2]
    by_cases hat : loop = peer.loop ∧ fd = peer.fd
    · rw [if_pos hat, hat.1, hat.2]
      simp only [true_and, entry]
    · rw [if_neg hat, if_neg fun hat' => hat ⟨hat'.1, hat'.2.1⟩]
  apply h.move hpeer hchanges hholds _ hlookup
  · intro loop fd
    rw [h.watched, ← hlookup, htable]
    apply ((h.unregister hpeer loop).2 fd).1
  · intro c'
    rw [hchanges.registered]
    have hmine := h.registered_iff hpeer peer.loop peer.fd
    by_cases hwas : peer.io.connection.registered = true
    · have hfound := hmine.mpr ⟨rfl, rfl, hwas⟩
      simp only [entry, if_pos hwas]
      split
      · simp [hregistered]
      · next hne =>
        rw [← h.entries, hfound]
        constructor
        · intro heq
          cases heq
        · intro heq
          exact absurd (Option.some.inj heq).symm hne
    · simp only [entry, if_neg hwas]
      split
      · next heq =>
        subst heq
        simp [hmine, hregistered, hwas]
      · rw [h.entries]
  · intro loop
    rw [htable]
    apply (h.unregister hpeer loop).1
  · intro report hmem
    rw [h.handled peer.loop hphase] at hmem
    cases hmem
  · rw [hclose]
    exact fun hopen => nomatch hopen

/-- A connection that is accepted has a descriptor that no other has open, and is registered
with no loop. -/
theorem Inv.accept (h : serving.Inv) (hnone : serving.server.peers c = none) {fd : Nat}
    (hfd : ¬serving.server.Open fd) {loop : Option Nat} {now : Int}
    (hchanges : serving.Changes c (TcpServer.newPeer fd loop now) serving')
    (htables : serving'.tables = serving.tables) :
  serving'.Inv
  := by
  have hconnection : (TcpServer.newPeer fd loop now).io.connection = .new now := by
    cases loop <;> rfl
  have hpc : (TcpServer.newPeer fd loop now).io.pc = .ready := by
    cases loop <;> rfl
  constructor
  · apply h.holds_one hchanges
    constructor
    · intro _
      rw [hconnection]
      rfl
    · intro hstate
      rw [hconnection] at hstate
      cases hstate
    · intro _
      rw [hconnection]
      rfl
    · intro hclose
      rw [hconnection] at hclose
      cases hclose
    · intro hasking
      rw [hpc] at hasking
      cases hasking
  · apply h.distinct_one hchanges
    intro c' peer' _ hpeer' hfd' _ hclose
    apply hfd ⟨c', peer', hpeer', hfd'.symm, hclose⟩
  · intro loop' fd' c'
    rw [htables, h.entries, hchanges.registered]
    split
    · next heq =>
      subst heq
      constructor
      · rintro ⟨peer, hpeer, -⟩
        rw [hnone] at hpeer
        cases hpeer
      · rintro ⟨-, -, hregistered⟩
        rw [hconnection] at hregistered
        cases hregistered
    · rfl
  · rw [htables]
    apply h.watched
  · rw [htables]
    apply h.reported
  · rw [htables]
    apply h.handled

end One

/-! ### The steps -/

theorem peers_removeConnectionInLoop (server : TcpServer) (c : ConnId) (peer : Peer) :
  (server.removeConnectionInLoop c peer).peers = server.peers
  := by
  rw [TcpServer.removeConnectionInLoop]
  split <;> rfl

theorem peers_removeConnection (server : TcpServer) (c : ConnId) (peer : Peer) :
  (server.removeConnection c peer).peers = server.peers
  := by
  rw [TcpServer.removeConnection]
  split
  · apply peers_removeConnectionInLoop
  · rfl

theorem sameFd_leaveCallback (peer : Peer) (callers : List IoRun.Caller) :
  SameFd peer (peer.leaveCallback callers)
  := by
  rw [Peer.leaveCallback]
  split <;> exact ⟨rfl, rfl, IoRun.sameFd_of_same rfl rfl rfl .inl⟩

/-- A step of the server keeps all connections as they are, or accepts one. -/
theorem servers_cases {server server' : TcpServer} {label : TcpServer.Label}
    (hservers : IsServers label) (hstep : server.Step label server') :
  Keeps server server' ∨ ∃ c fd loop now, server.peers c = none ∧ ¬server.Open fd
    ∧ ∀ c', server'.peers c' = if c' = c then some (TcpServer.newPeer fd loop now)
      else server.peers c'
  := by
  cases label with
  | io c label => cases hservers
  | closeCallback c =>
    obtain ⟨peer, callers, hpeer, -, -, rfl⟩ := hstep
    left
    apply keeps_of_one hpeer (sameFd_leaveCallback peer callers)
    intro c'
    rw [peers_removeConnection]
    apply TcpServer.peers_setPeer
  | accept c fd nonblocking now =>
    obtain ⟨hnone, hfd, rfl⟩ := hstep
    rw [TcpServer.handleAccept]
    split
    · exact .inl (keeps_of_eq rfl)
    split
    · exact .inl (keeps_of_eq rfl)
    · right
      use c, fd, server.getNextLoop.1, now, hnone, hfd
      apply server.peers_setPeer c _
  | post =>
    obtain rfl := hstep
    exact .inl (keeps_of_eq rfl)
  | task =>
    obtain ⟨tasks, ⟨-, rfl⟩ | ⟨c, peer, -, -, rfl⟩⟩ := hstep
    · exact .inl (keeps_of_eq rfl)
    · exact .inl (keeps_of_eq (peers_removeConnectionInLoop _ _ _))
  | finishRemoval c =>
    obtain ⟨peer, -, hpeer, rfl⟩ := hstep
    left
    refine keeps_of_one hpeer ?_ (server.peers_setPeer c _)
    exact ⟨rfl, rfl, IoRun.sameFd_of_same rfl rfl rfl .inl⟩

/-- A connection that acts keeps its descriptor and its loop. -/
theorem io_changes {c : ConnId} {peer : Peer} {label : IoRun.Label}
    (hpeer : serving.server.peers c = some peer)
    (hstep : serving.server.Step (.io c label) serving'.server) :
  ∃ io, peer.Allows label ∧ peer.io.Step label io ∧ serving.Changes c { peer with io } serving'
  := by
  obtain ⟨peer', io, hpeer', hallows, hio, hserver⟩ := hstep
  rw [hpeer] at hpeer'
  cases hpeer'
  refine ⟨io, hallows, hio, fun c' => ?_⟩
  rw [hserver]
  apply TcpServer.peers_setPeer

theorem Inv.io (h : serving.Inv) {c : ConnId} {peer : Peer} {label : IoRun.Label} {room : Bool}
    (hpeer : serving.server.peers c = some peer) (hpaced : serving.Paced peer label)
    (hanswers : serving.Answers c peer room (peer.io.request label))
    (hstep : serving.server.Step (.io c label) serving'.server)
    (htables : serving'.tables = serving.control c peer room (peer.io.request label)) :
  serving'.Inv
  := by
  obtain ⟨io, hallows, hio, hchanges⟩ := io_changes hpeer hstep
  have hholds := IoRun.step_holds (h.holds c peer hpeer) hio
  by_cases hadd : peer.io.request label = some (.add true)
  · obtain ⟨-, hconnection, -⟩ := IoRun.step_add hadd hio
    rw [hadd] at hanswers htables
    apply h.add hpeer hholds hconnection hanswers.symm hchanges htables
  by_cases hdestroy : peer.io.request label = some .destroy
  · obtain ⟨hstate, hconnection, -⟩ := IoRun.step_destroy hdestroy hio
    obtain ⟨hregistered, hclose, -⟩ := IoRun.connectDestroyed_closed hstate
    rw [← hconnection] at hregistered hclose
    rw [hdestroy] at htables
    apply h.destroy hpeer hholds hregistered hclose _ hchanges htables
    have hphase : (serving.tables peer.loop).phase = .functors := by
      cases label with
      | functor now added => exact hpaced
      | connectDestroyed => cases hallows
      | connectEstablished added => cases (IoRun.requestAdd_eq_some hdestroy).1
      | _ => cases hdestroy
    rw [hphase]
    simp
  · have hsame : serving'.tables = serving.tables := by
      rw [htables]
      rcases hrequest : peer.io.request label with _ | ⟨added⟩ | success | _
      · rfl
      · cases added with
        | true => exact absurd hrequest hadd
        | false =>
          rw [hrequest] at hanswers
          rw [control, FdTable.addFd_eq_false hanswers.symm, Function.update_eq_self]
      · rfl
      · exact absurd hrequest hdestroy
    apply h.keep
    · apply keeps_of_one hpeer _ hchanges
      exact ⟨rfl, rfl, IoRun.step_sameFd hadd hdestroy hio⟩
    · simp [hsame]
    · simp [hsame]
    · rw [hsame]
      apply h.reported
    · rw [hsame]
      apply h.handled

theorem step_inv {label : Label} (h : serving.Inv) (hstep : serving.Step label serving') :
  serving'.Inv
  := by
  cases label with
  | wait loop reports =>
    obtain ⟨-, -, hreports, rfl⟩ := hstep
    refine h.turn (keeps_of_eq rfl) rfl ?_ ?_
    · intro report hmem
      rw [← h.watched, hreports report hmem]
    · intro hphase
      exact absurd rfl hphase
  | dispatch loop reads =>
    obtain ⟨-, hphase, report, reports, hreports, htables, hserver⟩ := hstep
    have hrest : ∀ report ∈ reports,
        (serving.tables loop).callbacks.lookup report.fd = some report.owner := by
      intro report' hmem
      apply h.reported loop
      rw [hreports]
      apply List.mem_cons_of_mem _ hmem
    have hkeeps : Keeps serving.server serving'.server := by
      split at hserver
      · apply keeps_of_eq (by rw [hserver])
      · next c hlookup =>
        obtain ⟨peer, hpeer, -⟩ := (h.entries loop report.fd c).mp hlookup
        obtain ⟨io, -, hio, hchanges⟩ := io_changes hpeer hserver
        apply keeps_of_one hpeer _ hchanges
        exact ⟨rfl, rfl, (IoRun.handleEvent_quiet hio.2.2).toSameFd⟩
    apply h.turn hkeeps htables hrest
    intro hne
    exact absurd hphase hne
  | doPendingFunctors loop quit =>
    obtain ⟨-, -, -, rfl⟩ := hstep
    refine h.turn (keeps_of_eq rfl) rfl ?_ ?_
    · intro report hmem
      cases hmem
    · intro _
      rfl
  | again loop =>
    obtain ⟨-, hphase, -, rfl⟩ := hstep
    refine h.turn (keeps_of_eq rfl) rfl ?_ ?_
    · apply h.reported loop
    · intro _
      apply h.handled loop
      rw [hphase]
      simp
  | io c label room =>
    obtain ⟨peer, hpeer, hpaced, hanswers, hserver, htables⟩ := hstep
    apply h.io hpeer hpaced hanswers hserver htables
  | server label =>
    obtain ⟨hservers, hserver, htables⟩ := hstep
    obtain hkeeps | ⟨c, fd, loop, now, hnone, hfd, hpeers⟩ := servers_cases hservers hserver
    · apply h.keep hkeeps
      · simp [htables]
      · simp [htables]
      · rw [htables]
        apply h.reported
      · rw [htables]
        apply h.handled
    · apply h.accept hnone hfd hpeers htables

theorem inv_of_reachable (h : system.Reachable serving) : serving.Inv := by
  apply h.invariant
  · intro serving hinit
    apply inv_of_initial hinit
  · intro serving label serving' h _ hstep
    apply step_inv h hstep

/-! ### Whom a report reaches -/

/-- A report reaches the connection it was made for: when its turn comes this connection still
has the descriptor open, and the loop hands the event to it, whatever the callbacks before it
have done and whichever descriptors the kernel has given away. -/
theorem delivers_of_reachable (h : system.Reachable serving) {loop : Option Nat} {report : Report}
    {reports : List Report} (hreports : (serving.tables loop).reports = report :: reports) :
  (∃ peer, serving.server.peers report.owner = some peer ∧ peer.loop = loop
      ∧ peer.fd = report.fd ∧ peer.io.connection.close = false)
    ∧ ∀ reads serving', serving.Step (.dispatch loop reads) serving' →
      serving.server.Step (.io report.owner (.event report.events reads)) serving'.server
  := by
  have hinv := inv_of_reachable h
  have hlookup : (serving.tables loop).callbacks.lookup report.fd = some report.owner := by
    apply hinv.reported loop
    rw [hreports]
    apply List.mem_cons_self
  constructor
  · obtain ⟨peer, hpeer, hloop, hfd, hregistered⟩ := (hinv.entries _ _ _).mp hlookup
    use peer, hpeer, hloop, hfd
    apply (hinv.holds _ peer hpeer).registered hregistered
  · rintro reads serving' ⟨-, -, report', reports', hreports', -, hserver⟩
    rw [hreports] at hreports'
    cases hreports'
    rw [hlookup] at hserver
    exact hserver

/-! ### What the loop answers -/

/-- The callbacks of a loop and the interest list of its epoll are those of its registered
connections.  So a new connection is added whenever the kernel has room, whatever had its
descriptor before, and the events of a connection can always be changed and in the end be
removed. -/
structure Agrees (serving : Serving) : Prop where
  callbacks : ∀ loop fd c,
    (serving.tables loop).callbacks.lookup fd = some c ↔ serving.Registered loop fd c
  watched : ∀ loop fd, (serving.tables loop).watched fd = (serving.tables loop).callbacks.lookup fd
  added : ∀ c peer, serving.server.peers c = some peer →
    peer.io.connection.state = .connecting →
    ((serving.tables peer.loop).addFd peer.fd c true).1 = true
  updated : ∀ c peer, serving.server.peers c = some peer → peer.io.pc = .updateFd →
    (serving.tables peer.loop).updateFd peer.fd = true
  removed : ∀ c peer, serving.server.peers c = some peer →
    peer.io.connection.registered = true → ((serving.tables peer.loop).removeFd peer.fd).1 = true

theorem agrees_of_reachable (h : system.Reachable serving) : serving.Agrees := by
  have hinv := inv_of_reachable h
  have hfound : ∀ c peer, serving.server.peers c = some peer →
      peer.io.connection.registered = true →
      (serving.tables peer.loop).callbacks.lookup peer.fd = some c
        ∧ (serving.tables peer.loop).watched peer.fd = some c := by
    intro c peer hpeer hregistered
    have hlookup := (hinv.registered_iff hpeer _ _).mpr ⟨rfl, rfl, hregistered⟩
    exact ⟨hlookup, (hinv.watched _ _).trans hlookup⟩
  constructor
  · apply hinv.entries
  · apply hinv.watched
  · intro c peer hpeer hstate
    have hholds := hinv.holds c peer hpeer
    have hopen := hholds.open_of_connecting hstate
    have hfree : (serving.tables peer.loop).callbacks.lookup peer.fd = none := by
      by_contra hused
      obtain ⟨c', hlookup⟩ := Option.ne_none_iff_exists'.mp hused
      obtain ⟨peer', hpeer', -, hfd, hregistered⟩ := (hinv.entries _ _ _).mp hlookup
      have hsame := hinv.distinct c' c peer' peer hpeer' hpeer hfd
        ((hinv.holds c' peer' hpeer').registered hregistered) hopen
      subst hsame
      rw [hpeer] at hpeer'
      cases hpeer'
      rw [hholds.connecting hstate] at hregistered
      cases hregistered
    rw [FdTable.addFd, if_neg (AList.lookup_eq_none.mp hfree), if_neg]
    rw [hinv.watched, hfree]
    simp
  · intro c peer hpeer hpc
    have hasking : Polled.Asking peer.io.pc := by
      rw [hpc]
      trivial
    obtain ⟨hlookup, hwatched⟩ := hfound c peer hpeer ((hinv.holds c peer hpeer).asking hasking)
    rw [FdTable.updateFd, if_neg (not_not.mpr (AList.mem_iff_lookup.mpr ⟨c, hlookup⟩)), hwatched]
    rfl
  · intro c peer hpeer hregistered
    obtain ⟨hlookup, hwatched⟩ := hfound c peer hpeer hregistered
    rw [FdTable.removeFd_eq hlookup hwatched]

/-! ### A connection on its loop -/

/-- A server that has accepted one connection for the loop of its pool. -/
def one (peer : Peer) (table : FdTable) : Serving where
  server := { TcpServer.start 1 true with
    peers := Function.update (fun _ => none) 1 (some peer)
    connections := AList.insert 5 1 (∅ : UnorderedMap Nat ConnId) }
  tables := Function.update (fun _ => .empty) (some 0) table

variable {peer : Peer} {table : FdTable}

theorem one_peer {c : ConnId} {peer' : Peer} (h : (one peer table).server.peers c = some peer') :
  c = 1 ∧ peer = peer'
  := by
  have hpeers : (one peer table).server.peers c = if c = 1 then some peer else none :=
    Function.update_apply (fun _ => none) 1 (some peer) c
  rw [hpeers] at h
  obtain ⟨hc, hpeer⟩ := Option.ite_none_right_eq_some.mp h
  exact ⟨hc, Option.some.inj hpeer⟩

theorem one_atLoop (h : peer.io.AtLoop) (loop : Option Nat) :
  (one peer table).AtLoop loop
  := by
  intro c peer' hpeer' _
  obtain ⟨-, rfl⟩ := one_peer hpeer'
  exact h

theorem one_setTable (peer : Peer) (table table' : FdTable) :
  (one peer table).setTable (some 0) table' = one peer table'
  := by
  rw [setTable, one, Function.update_idem]
  rfl

theorem one_setPeer (peer peer' : Peer) (table table' : FdTable) :
  (one peer table).server.setPeer 1 peer' = (one peer' table').server
  := by
  rw [TcpServer.setPeer, one, Function.update_idem]
  rfl

theorem one_tables (peer : Peer) (table : FdTable) : (one peer table).tables (some 0) = table :=
  rfl

/-- Only the reports of the loop change. -/
theorem one_turn {label : Label} {phase : Phase} {reports : List Report}
    (h : system.Reachable (one peer table))
    (hstep : (one peer table).Step label ((one peer table).setTable (some 0)
      { table with phase, reports })) :
  system.Reachable (one peer { table with phase, reports })
  := by
  rw [one_setTable] at hstep
  apply h.step (ℓ := label) trivial hstep

/-- The connection acts. -/
theorem one_io {io : IoRun} (h : system.Reachable (one peer table)) (label : IoRun.Label)
    (table' : FdTable) (hallows : peer.Allows label)
    (hpaced : (one peer table).Paced peer label)
    (hanswers : (one peer table).Answers 1 peer true (peer.io.request label))
    (hstep : peer.io.Step label io)
    (htables : (one peer table').tables
      = (one peer table).control 1 peer true (peer.io.request label)) :
  system.Reachable (one { peer with io } table')
  := by
  have hpeer : (one peer table).server.peers 1 = some peer := rfl
  have hserver : (one peer table).server.Step (.io 1 label)
      ((one peer table).server.setPeer 1 { peer with io }) :=
    ⟨peer, io, hpeer, hallows, hstep, rfl⟩
  rw [one_setPeer _ _ _ table'] at hserver
  apply h.step (ℓ := Label.io 1 label true) trivial
    ⟨peer, hpeer, hpaced, hanswers, hserver, htables⟩

/-- The connection 1 has the descriptor 5, and an event for it was reported. -/
def reported : Serving :=
  one ⟨5, some 0, ⟨(Connection.new 0).establish, readEvents, .ready, [], [], [], [], false, [], [],
      0, []⟩⟩
    ⟨AList.insert 5 1 ∅, Function.update (fun _ => none) 5 (some 1), .dispatching,
      [⟨5, epollIn, 1⟩]⟩

theorem reported_reachable : system.Reachable reported := by
  have hstart : system.Reachable ⟨TcpServer.start 1 true, fun _ => .empty⟩ :=
    .initial ⟨⟨1, true, rfl⟩, rfl⟩
  have haccepted : system.Reachable (one (TcpServer.newPeer 5 (some 0) 0) .empty) := by
    apply hstart.step (ℓ := Label.server (.accept 1 5 true 0)) trivial
    refine ⟨trivial, ⟨rfl, ?_, rfl⟩, Function.update_eq_self _ _⟩
    rintro ⟨_, _, ⟨⟩, _⟩
  have hatLoop : ∀ table, (one (TcpServer.newPeer 5 (some 0) 0) table).AtLoop (some 0) :=
    fun table => one_atLoop ⟨rfl, rfl⟩ _
  have hdispatched := one_turn haccepted (show Step _ (.wait (some 0) []) _ from
    ⟨hatLoop _, rfl, by simp, rfl⟩)
  have hfunctors := one_turn hdispatched (show Step _ (.doPendingFunctors (some 0) false) _ from
    ⟨hatLoop _, rfl, .inl rfl, rfl⟩)
  have hqueued := one_io hfunctors .doPendingFunctors _ trivial rfl trivial
    ⟨⟨rfl, rfl⟩, rfl, rfl⟩ rfl
  have hconnected := one_io hqueued (.functor 0 true)
    ⟨AList.insert 5 1 ∅, Function.update (fun _ => none) 5 (some 1), .functors, []⟩ trivial rfl rfl
    ⟨⟨rfl, rfl⟩, _, _, rfl, rfl⟩ (Function.update_idem _ _ _).symm
  have hback := one_turn hconnected (show Step _ (.again (some 0)) _ from
    ⟨one_atLoop ⟨rfl, rfl⟩ _, rfl, fun c peer hpeer _ => (one_peer hpeer).2 ▸ rfl, rfl⟩)
  apply one_turn hback (show Step _ (.wait (some 0) [⟨5, epollIn, 1⟩]) _ from
    ⟨one_atLoop ⟨rfl, rfl⟩ _, rfl, by simp [one_tables], rfl⟩)

theorem reported_delivers :
  (∃ peer, reported.server.peers 1 = some peer ∧ peer.loop = some 0 ∧ peer.fd = 5
      ∧ peer.io.connection.close = false)
    ∧ ∀ reads serving', reported.Step (.dispatch (some 0) reads) serving' →
      reported.server.Step (.io 1 (.event epollIn reads)) serving'.server
  := @delivers_of_reachable _ reported_reachable (some 0) ⟨5, epollIn, 1⟩ [] rfl

theorem reported_agrees :
  reported.Agrees ∧ (reported.tables (some 0)).callbacks.lookup 5 = some 1
  := ⟨agrees_of_reachable reported_reachable, rfl⟩

end Serving

end RoomServer
