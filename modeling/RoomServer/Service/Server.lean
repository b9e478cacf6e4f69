import Mathlib.Logic.Function.Basic
import RoomServer.Net.Outbound
import RoomServer.Service.Runs

/-!
# The server

The server accepts connections and gives each of them to the loop of another thread.  There the
message callback of a connection decodes what was read: it answers heartbeats itself, and posts
the other frames to the base loop.  The close callback posts the removal of the connection.
The base loop runs the posted tasks in their order, and the timers in between: it hands the
frames to the service, and for a removal it tells the service that the connection is closed and
forgets it.

Connections never share a `ConnId`, and what the base thread answers from a connection is
arbitrary.
-/

namespace RoomServer

/-- Where the message callback of a connection is: at its next frame, at the return of the send
of an acknowledgement, or behind the refusal of one. -/
inductive Decoding where
  | next
  | acking
  | refused
  deriving DecidableEq

/-- A connection that was accepted. -/
structure Peer where
  fd : Nat
  io : IoRun
  decoding : Decoding

/-- A task of the base loop. -/
inductive BaseTask where
  | frame (c : ConnId) (type : UInt16) (payload : Bytes)
  | removeConnection (c : ConnId)
  deriving DecidableEq

namespace Peer

/-- The message callback returns to `handleEvent`. -/
def answer (peer : Peer) (events : UInt32) (callers : List IoRun.Caller) (answer : Bool) : Peer :=
  { peer with io := { peer.io with callers }.resumeEvent events answer, decoding := .next }

def refreshPeerActivity (peer : Peer) (now : Int) : Peer :=
  { peer with
    io := { peer.io with connection := peer.io.connection.refreshPeerActivity now } }

/-- Acknowledge a heartbeat: `none` when the acknowledgement is to be sent, else the result. -/
def handleHeartbeat (peer : Peer) (now : Int) (payload : Bytes) : Option Bool × Peer :=
  match Protocol.decodeHeartbeatRequest payload with
  | none => (some false, peer)
  | some request =>
    let peer := peer.refreshPeerActivity now
    match Protocol.encodeHeartbeatAck request.seq with
    | none => (some false, peer)
    | some payload =>
      match Codec.encode MessageType.heartbeatAck.toU16 payload with
      | none => (some false, peer)
      | some frame => (none, { peer with io := peer.io.send frame, decoding := .acking })

/-- Handle a frame in the thread of the connection: the result, if there is one yet, and the
tasks that are posted to the base loop. -/
def handleDecodedFrame (peer : Peer) (c : ConnId) (now : Int) (type : UInt16) (payload : Bytes) :
    Option Bool × List BaseTask × Peer :=
  match MessageType.ofU16 type with
  | some .heartbeat =>
    let (result, peer) := peer.handleHeartbeat now payload
    (result, [], peer)
  | some .join | some .leave | some .chat | some .move | some .attack | some .resume =>
    (some true, [.frame c type payload], peer.refreshPeerActivity now)
  | _ => (some false, [], peer)

/-- The message callback goes on: with the next turn of `Codec.decode`, or behind the send of an
acknowledgement, which closes the connection when it is refused. -/
def handleMessage (peer : Peer) (c : ConnId) (now : Int) (events : UInt32)
    (callers : List IoRun.Caller) : List BaseTask × Peer :=
  match peer.decoding with
  | .next =>
    match Codec.next peer.io.connection.readBuffer with
    | .incomplete => ([], peer.answer events callers true)
    | .badLength => ([], peer.answer events callers false)
    | .frame type payload rest =>
      let peer := { peer with
        io := { peer.io with connection := { peer.io.connection with readBuffer := rest } } }
      match peer.handleDecodedFrame c now type payload with
      | (some false, tasks, peer) => (tasks, peer.answer events callers false)
      | (_, tasks, peer) => (tasks, peer)
  | .acking =>
    if peer.io.result then
      ([], { peer with decoding := .next })
    else
      ([], { peer with io := peer.io.handleClose, decoding := .refused })
  | .refused => ([], peer.answer events callers false)

end Peer

/-- The server, with a record of the connections that the base loop has removed. -/
structure Server where
  peers : ConnId → Option Peer
  connections : UnorderedMap Nat ConnId
  tasks : List BaseTask
  service : RoomService
  removed : List ConnId

namespace Server

def setPeer (server : Server) (c : ConnId) (peer : Peer) : Server :=
  { server with peers := Function.update server.peers c (some peer) }

/-- A connection that waits on its loop for `connectEstablished`. -/
def newPeer (fd : Nat) (now : Int) : Peer where
  fd := fd
  io := ⟨.new now, 0, .ready, [], [], [.connectEstablished], [], false, [], [], 0, []⟩
  decoding := .next

/-- Accept a descriptor, unless there is a connection with it. -/
def handleAccept (server : Server) (c : ConnId) (fd : Nat) (now : Int) : Server :=
  if fd ∈ server.connections then
    server
  else
    { server.setPeer c (newPeer fd now) with connections := server.connections.insert fd c }

/-- Remove a connection that the server still has. -/
def removeConnectionInLoop (server : Server) (c : ConnId) (now : Int) : Server :=
  match server.peers c with
  | none => server
  | some peer =>
    if server.connections.lookup peer.fd = some c then
      { server.setPeer c { peer with
          io := { peer.io with
            pendingFunctors := peer.io.pendingFunctors ++ [.connectDestroyed] } } with
        service := server.service.handleConnectionClosed (some c) now
        connections := server.connections.erase peer.fd
        removed := c :: server.removed }
    else
      server

/-- Run a task of the base loop, with the answers of the connections, a generated token and the
time. -/
def runTask (server : Server) (answers : Answers) (token : Bytes) (now : Int) : BaseTask → Server
  | .frame c type payload =>
    { server with
      service := (server.service.run answers (.frame (some c) type payload token now)).1 }
  | .removeConnection c => server.removeConnectionInLoop c now

/-! ### The system -/

/-- The steps of the loops of the connections, of their callbacks, and of the base loop. -/
inductive Label where
  | io (c : ConnId) (label : IoRun.Label)
  | message (c : ConnId) (now : Int)
  | closed (c : ConnId)
  | accept (c : ConnId) (fd : Nat) (now : Int)
  | task (answers : Answers) (token : Bytes) (now : Int)
  | tick (answers : Answers) (expirations : UInt64)
  | sessionTimeouts (answers : Answers) (now : Int)
  | reorder

/-- The steps of a connection that are not those of the code of others in the thread of its
loop: that code is the two callbacks. -/
def OfConnection : IoRun.Label → Prop
  | .enter | .resume _ | .send _ | .requestClose | .connectEstablished _ | .connectDestroyed
  | .refreshPeerActivity _ | .setReadBuffer _ => False
  | .queueInLoop functor =>
    functor = .handleClose ∨ ∃ timeout, functor = .checkTimeoutInLoop timeout
  | _ => True

def Step (server : Server) (label : Label) (server' : Server) : Prop :=
  match label with
  | .io c label =>
    ∃ peer io, server.peers c = some peer ∧ OfConnection label ∧ peer.io.Step label io
      ∧ server' = server.setPeer c { peer with io }
  | .message c now =>
    ∃ peer events callers, server.peers c = some peer ∧ peer.io.pc = .ready
      ∧ peer.io.callers = .handleEvent events :: callers
      ∧ server' = { server.setPeer c (peer.handleMessage c now events callers).2 with
        tasks := server.tasks ++ (peer.handleMessage c now events callers).1 }
  | .closed c =>
    ∃ peer callers, server.peers c = some peer ∧ peer.io.pc = .ready
      ∧ peer.io.callers = .handleClose :: callers
      ∧ server' = { server.setPeer c { peer with io := { peer.io with callers } } with
        tasks := server.tasks ++ [.removeConnection c] }
  | .accept c fd now => server.peers c = none ∧ server' = server.handleAccept c fd now
  | .task answers token now =>
    ∃ task tasks, server.tasks = task :: tasks
      ∧ server' = { server with tasks }.runTask answers token now task
  | .tick answers expirations =>
    server' = { server with service := (server.service.handleTick answers expirations).1 }
  | .sessionTimeouts answers now =>
    server' = { server with service := (server.service.handleSessionTimeouts answers now).1 }
  | .reorder =>
    ∃ service connections, server.service.Reordered service
      ∧ server.connections.Similar connections ∧ server' = { server with service, connections }

/-- The rooms of the service were added or restored, and no connection was accepted. -/
def Started (server : Server) : Prop :=
  ∃ service, RoomService.system.ReachableBy
      (fun _ action => (∃ r capacity, action = .addRoom r capacity)
        ∨ ∃ checkpoint now, action = .restore checkpoint now) service
    ∧ server = ⟨fun _ => none, ∅, [], service, []⟩

def system : System Server Label where
  Initial := Started
  Step := Step

end Server

end RoomServer
