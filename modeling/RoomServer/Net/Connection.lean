import RoomServer.Lib.Outbox
import RoomServer.Net.Buffer

/-!
# Connections

A connection belongs to an event loop.  Any thread may send on it: the sender reserves room for
the whole data, and a task of the loop appends them to the write buffer and writes what the
socket takes.  What is reserved or in the write buffer is counted in `pendingWriteBytes`, the
only field that other threads touch.

The functions below are the pieces of the member functions between two accesses to that
counter.  Bytes leave the write buffer and the count in one piece.  The functions that are
private to the loop are only called in its thread, and their checks of the thread are left out.
-/

namespace RoomServer

namespace Connection

inductive State where
  | connecting
  | connected
  | disconnecting
  | disconnected
  deriving DecidableEq, Repr

end Connection

structure Connection where
  state : Connection.State
  registered : Bool
  close : Bool
  readBuffer : Buffer
  writeBuffer : Buffer
  pendingWriteBytes : Nat
  lastPeerActivityTime : Int
  peerEof : Bool
  /-- The log says that more was to be released than is owed. -/
  overReleased : Bool
  deriving DecidableEq

namespace Connection

abbrev writeHighWaterMark : Nat := 512 * 1024
abbrev writeHardLimit : Nat := 1024 * 1024

/-- A connection that was just accepted. -/
def new (now : Int) : Connection where
  state := .connecting
  registered := false
  close := false
  readBuffer := .new 4096
  writeBuffer := .new 4096
  pendingWriteBytes := 0
  lastPeerActivityTime := now
  peerEof := false
  overReleased := false

/-! ### The write debt -/

/-- So much waits to be written that the connection is spared what it can do without. -/
def underBackpressure (connection : Connection) : Bool :=
  connection.pendingWriteBytes ≥ writeHighWaterMark

/-- Where a call of `reserveWriteBytes` is: before its load, or before an exchange for the
value it has loaded. -/
inductive Reservation where
  | load
  | exchange (cur : Nat)
  deriving DecidableEq

/-- What a step of `reserveWriteBytes` leads to. -/
inductive Attempt where
  | retry (cur : Nat)
  | refused
  | granted
  deriving DecidableEq

/-- Look at a value that was loaded. -/
def attempt (len cur : Nat) : Attempt :=
  if cur > writeHardLimit ∨ len > writeHardLimit - cur then .refused else .retry cur

/-- One step of `reserveWriteBytes`; an exchange may fail for no reason. -/
def reserveWriteBytes (connection : Connection) (len : Nat) (spurious : Bool) :
    Reservation → Attempt × Connection
  | .load =>
    if len = 0 then
      (.refused, connection)
    else
      (attempt len connection.pendingWriteBytes, connection)
  | .exchange cur =>
    if connection.pendingWriteBytes = cur ∧ !spurious then
      (.granted, { connection with pendingWriteBytes := cur + len })
    else
      (attempt len connection.pendingWriteBytes, connection)

def releaseWriteBytes (connection : Connection) (len : Nat) : Connection :=
  if len = 0 then
    connection
  else if len > connection.pendingWriteBytes then
    { connection with overReleased := true }
  else
    { connection with pendingWriteBytes := connection.pendingWriteBytes - len }

def clearWriteBufferInLoop (connection : Connection) : Connection :=
  let release := connection.writeBuffer.readableBytes
  if release = 0 then
    connection
  else
    { connection with writeBuffer := connection.writeBuffer.retrieveAll }.releaseWriteBytes release

@[simp]
theorem state_releaseWriteBytes (connection : Connection) (len : Nat) :
  (connection.releaseWriteBytes len).state = connection.state
  := by
  rw [releaseWriteBytes]
  split
  · rfl
  · split <;> rfl

@[simp]
theorem state_clearWriteBufferInLoop (connection : Connection) :
  connection.clearWriteBufferInLoop.state = connection.state
  := by
  rw [clearWriteBufferInLoop]
  split
  · rfl
  · apply state_releaseWriteBytes _ _

/-! ### The socket -/

/-- What a read returns; nothing is received at the end of the stream. -/
inductive ReadOutcome where
  | received (data : Bytes)
  | interrupted
  | wouldBlock
  | failed

/-- Read until the socket has no more; there is no result when the outcomes do not suffice. -/
def readFromSocket (connection : Connection) : List ReadOutcome → Option (Bool × Connection)
  | [] => none
  | .received data :: outcomes =>
    if data = [] then
      some (true, { connection with peerEof := true })
    else
      readFromSocket { connection with readBuffer := connection.readBuffer.append data } outcomes
  | .interrupted :: outcomes => connection.readFromSocket outcomes
  | .wouldBlock :: _ => some (true, connection)
  | .failed :: _ => some (false, connection)

/-- Reading fills the buffer of what is read, and may find that the peer has finished. -/
theorem readFromSocket_eq {connection connection' : Connection} {reads : List ReadOutcome}
    {success : Bool} (h : connection.readFromSocket reads = some (success, connection')) :
  connection' = { connection with
    readBuffer := connection'.readBuffer, peerEof := connection'.peerEof }
  := by
  induction reads generalizing connection with
  | nil => cases h
  | cons read reads ih =>
    cases read with
    | received data =>
      rw [readFromSocket] at h
      split at h
      · cases h
        rfl
      · have hsame := ih h
        exact hsame
    | interrupted => apply ih h
    | wouldBlock =>
      cases h
      rfl
    | failed =>
      cases h
      rfl

/-- What a write returns. -/
inductive WriteOutcome where
  | written (n : Nat)
  | interrupted
  | wouldBlock
  | failed

/-- One turn of the loop of `writeToSocket`: its result when it ends, and the bytes the socket
takes. -/
def writeToSocket (connection : Connection) (outcome : WriteOutcome) :
    Option Bool × Bytes × Connection :=
  if connection.writeBuffer.empty then
    (some true, [], connection)
  else
    match outcome with
    | .written 0 => (some false, [], connection)
    | .written n =>
      let k := min n connection.writeBuffer.readableBytes
      (none, connection.writeBuffer.peek.take k,
        { connection with writeBuffer := connection.writeBuffer.retrieve k }.releaseWriteBytes k)
    | .interrupted => (none, [], connection)
    | .wouldBlock => (some true, [], connection)
    | .failed => (some false, [], connection)

/-- A turn of a write ends it, does nothing, or hands the front of the write buffer to the
socket. -/
theorem writeToSocket_cases (connection : Connection) (outcome : WriteOutcome) :
  (∃ success, connection.writeToSocket outcome = (some success, [], connection))
    ∨ connection.writeToSocket outcome = (none, [], connection)
    ∨ ∃ k ≤ connection.writeBuffer.readableBytes,
      connection.writeToSocket outcome = (none, connection.writeBuffer.content.take k,
        { connection with
          writeBuffer := connection.writeBuffer.retrieve k }.releaseWriteBytes k)
  := by
  rw [writeToSocket.eq_def]
  by_cases hempty : connection.writeBuffer.empty
  · rw [if_pos hempty]
    exact .inl ⟨true, rfl⟩
  rw [if_neg hempty]
  cases outcome with
  | written n =>
    cases n with
    | zero => exact .inl ⟨false, rfl⟩
    | succ n =>
      right; right
      use min (n + 1) connection.writeBuffer.readableBytes, Nat.min_le_right _ _
      rw [← Buffer.take_peek (Nat.min_le_right _ _)]
      rfl
  | interrupted => exact .inr (.inl rfl)
  | wouldBlock => exact .inl ⟨true, rfl⟩
  | failed => exact .inl ⟨false, rfl⟩

/-! ### The states -/

/-- Whether the connection is still open decides whether the close callback is called. -/
def handleClose (connection : Connection) : Bool × Connection :=
  if connection.state = .disconnecting ∨ connection.state = .disconnected then
    (false, connection)
  else
    (true, { connection with state := .disconnecting }.clearWriteBufferInLoop)

/-- The part of `connectEstablished` in which the descriptor was added to the loop. -/
def establish (connection : Connection) : Connection :=
  { connection with registered := true, state := .connected }

def connectDestroyed (connection : Connection) : Connection :=
  if connection.state = .disconnected then
    connection
  else
    { { connection with registered := false }.clearWriteBufferInLoop with
      close := true, state := .disconnected }

def refreshPeerActivity (connection : Connection) (now : Int) : Connection :=
  if connection.state = .connected then
    { connection with lastPeerActivityTime := now }
  else
    connection

/-- The peer has been silent for too long. -/
def timedOut (connection : Connection) (now timeout : Int) : Bool :=
  connection.state == .connected && now - connection.lastPeerActivityTime ≥ timeout

/-! ### The events -/

abbrev epollIn : UInt32 := 0x001
abbrev epollOut : UInt32 := 0x004
abbrev epollErr : UInt32 := 0x008
abbrev epollHup : UInt32 := 0x010
abbrev epollRdhup : UInt32 := 0x2000
abbrev epollOneshot : UInt32 := 0x40000000
abbrev epollEt : UInt32 := 0x80000000

/-- The events a connection always asks its loop for. -/
abbrev readEvents : UInt32 := epollIn ||| epollEt ||| epollOneshot ||| epollRdhup

/-- The events the connection asks its loop for. -/
def needEvents (connection : Connection) : UInt32 :=
  if connection.writeBuffer.empty then readEvents else readEvents ||| epollOut

end Connection

end RoomServer
