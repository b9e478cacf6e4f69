import RoomServer.Lib.Transition
import RoomServer.Checkpoint.FileFormat

/-!
# The checkpoint store

The owner of a store submits checkpoints, and a writer thread saves them: it encodes a
checkpoint, writes and syncs a temporary file, renames it to the path of the store and syncs
the directory.  There is room for one checkpoint that waits, and a later one replaces it.

The functions below are the critical sections of the store and the system calls of the
writer, each a step of its own.  Every system call may fail, and the process may crash between
any two steps.  Memory is taken to be sufficient; an exception in a commit is one more failure.
-/

namespace RoomServer

/-- The files at the path of the store and at its temporary path. -/
structure Disk where
  path : Option Bytes
  temporary : Option Bytes

/-- What a system call does; `done n` is success, with `n` the bytes offered to a read or a
write. -/
inductive Outcome where
  | done (n : Nat)
  | interrupted
  | failed

structure CheckpointStore where
  valid : Bool
  started : Bool
  stopping : Bool
  writing : Bool
  pendingCheckpoint : Option ServerCheckpoint
  lastSubmittedGeneration : UInt64
  lastCommittedGeneration : UInt64
  lastFailedGeneration : UInt64

namespace CheckpointStore

abbrev maxCheckpointFileSize : Nat := 64 * 1024 * 1024
abbrev readBufferSize : Nat := 8192

inductive Loadstates where
  | success
  | notFound
  | invalidState
  | ioError
  | decodeError
  deriving DecidableEq, Repr

/-- A store for the path. -/
def new (path : String) : CheckpointStore where
  valid := !path.isEmpty
  started := false
  stopping := false
  writing := false
  pendingCheckpoint := none
  lastSubmittedGeneration := 0
  lastCommittedGeneration := 0
  lastFailedGeneration := 0

/-! ### Loading -/

/-- How the reading of a file ends. -/
inductive ReadEnd where
  | complete (data : Bytes)
  | tooLarge
  | failed

/-- Read the rest of a file behind `data`; there is no result when the outcomes of the reads
do not suffice. -/
def readLoop (rest data : Bytes) : List Outcome → Option ReadEnd
  | [] => none
  | .interrupted :: outcomes => readLoop rest data outcomes
  | .failed :: _ => some .failed
  | .done n :: outcomes =>
    if rest = [] then
      some (.complete data)
    else
      -- A read that does not fail takes at least one byte before the end of the file.
      let chunk := rest.take (min (max n 1) readBufferSize)
      if data.length > maxCheckpointFileSize - chunk.length then
        some .tooLarge
      else
        readLoop (rest.drop (min (max n 1) readBufferSize)) (data ++ chunk) outcomes

/-- The store cannot be loaded or started. -/
def occupied (store : CheckpointStore) : Bool :=
  !store.valid || store.started || store.stopping || store.writing
    || store.pendingCheckpoint.isSome

/-- Load the file, given whether it opens and closes and what the reads do. -/
def load (store : CheckpointStore) (disk : Disk) (opens : Bool) (reads : List Outcome)
    (closes : Bool) : Option (Loadstates × CheckpointStore) :=
  if store.occupied then
    some (.invalidState, store)
  else
    match disk.path with
    | none => some (if opens then .notFound else .ioError, store)
    | some content =>
      if !opens then
        some (.ioError, store)
      else
        match readLoop content [] reads with
        | none => none
        | some .failed => some (.ioError, store)
        | some .tooLarge => some (if closes then .decodeError else .ioError, store)
        | some (.complete data) =>
          if !closes then
            some (.ioError, store)
          else
            match CheckpointCodec.decode data ⟨0, [], []⟩ with
            | (.success, checkpoint) =>
              some (.success, { store with
                lastSubmittedGeneration := checkpoint.generation
                lastCommittedGeneration := checkpoint.generation })
            | _ => some (.decodeError, store)

/-! ### The owner -/

/-- Start the writer, given whether a thread can be created. -/
def start (store : CheckpointStore) (created : Bool) : Bool × CheckpointStore :=
  if store.occupied then
    (false, store)
  else if !created then
    (false, store)
  else
    (true, { store with started := true })

def submit (store : CheckpointStore) (checkpoint : ServerCheckpoint) : Bool × CheckpointStore :=
  if !store.valid || !store.started || store.stopping || checkpoint.generation == 0
      || checkpoint.generation ≤ store.lastSubmittedGeneration then
    (false, store)
  else
    (true, { store with
      pendingCheckpoint := some checkpoint
      lastSubmittedGeneration := checkpoint.generation })

/-- Nothing waits and nothing is written. -/
def idle (store : CheckpointStore) : Bool :=
  store.pendingCheckpoint.isNone && !store.writing

/-- What `flush` returns; none while it waits. -/
def flush (store : CheckpointStore) : Option Bool :=
  if !store.valid then
    some false
  else if !store.idle then
    none
  else
    some (store.lastSubmittedGeneration == store.lastCommittedGeneration)

/-- The first critical section of `stop`: what it returns at once, or the store in which it
waits for the writer to exit. -/
def requestStop (store : CheckpointStore) : Bool ⊕ CheckpointStore :=
  if !store.started then
    .inl (store.valid && store.lastSubmittedGeneration == store.lastCommittedGeneration)
  else
    .inr { store with stopping := true }

/-- The last critical section of `stop`. -/
def completeStop (store : CheckpointStore) : Bool × CheckpointStore :=
  (store.lastSubmittedGeneration == store.lastCommittedGeneration,
    { store with started := false, stopping := false, writing := false })

/-! ### The writer -/

/-- Where the writer thread is. -/
inductive Writer where
  | absent
  | waiting
  | encode (checkpoint : ServerCheckpoint)
  | openFile (checkpoint : ServerCheckpoint) (data : Bytes)
  | writeFile (checkpoint : ServerCheckpoint) (data : Bytes) (offset : Nat)
  | syncFile (checkpoint : ServerCheckpoint) (data : Bytes)
  | closeFile (checkpoint : ServerCheckpoint) (data : Bytes)
  | renameFile (checkpoint : ServerCheckpoint) (data : Bytes)
  | abandon (checkpoint : ServerCheckpoint)
  | unlinkFile (checkpoint : ServerCheckpoint)
  | openDirectory (checkpoint : ServerCheckpoint)
  | syncDirectory (checkpoint : ServerCheckpoint)
  | closeDirectory (checkpoint : ServerCheckpoint) (synced : Bool)
  | report (checkpoint : ServerCheckpoint) (committed : Bool)
  | exited

/-- The checkpoint the writer is busy with. -/
def Writer.current : Writer → Option ServerCheckpoint
  | absent | waiting | exited => none
  | encode checkpoint | openFile checkpoint _ | writeFile checkpoint _ _ | syncFile checkpoint _
  | closeFile checkpoint _ | renameFile checkpoint _ | abandon checkpoint
  | unlinkFile checkpoint | openDirectory checkpoint | syncDirectory checkpoint
  | closeDirectory checkpoint _ | report checkpoint _ => some checkpoint

/-- The writer takes the checkpoint that waits. -/
def take (store : CheckpointStore) : CheckpointStore :=
  { store with pendingCheckpoint := none, writing := true }

/-- The writer records whether it has committed the checkpoint. -/
def settle (store : CheckpointStore) (checkpoint : ServerCheckpoint) (committed : Bool) :
    CheckpointStore :=
  if committed then
    { store with writing := false, lastCommittedGeneration := checkpoint.generation }
  else
    { store with writing := false, lastFailedGeneration := checkpoint.generation }

/-- One step of `commitCheckpoint`: where the writer is after a system call, and the files. -/
def commitStep (outcome : Outcome) (disk : Disk) : Writer → Writer × Disk
  | .encode checkpoint =>
    match outcome, CheckpointCodec.encode checkpoint [] with
    | .done _, (.success, data) => (.openFile checkpoint data, disk)
    | _, _ => (.report checkpoint false, disk)
  | .openFile checkpoint data =>
    match outcome with
    | .done _ => (.writeFile checkpoint data 0, { disk with temporary := some [] })
    | _ => (.report checkpoint false, disk)
  | .writeFile checkpoint data offset =>
    if data.length ≤ offset then
      (.syncFile checkpoint data, disk)
    else
      match outcome with
      | .done 0 | .failed => (.abandon checkpoint, disk)
      | .done n =>
        let written := min n (data.length - offset)
        (.writeFile checkpoint data (offset + written),
          { disk with temporary := disk.temporary.map (· ++ (data.drop offset).take written) })
      | .interrupted => (.writeFile checkpoint data offset, disk)
  | .syncFile checkpoint data =>
    match outcome with
    | .done _ => (.closeFile checkpoint data, disk)
    | .interrupted => (.syncFile checkpoint data, disk)
    | .failed => (.abandon checkpoint, disk)
  | .abandon checkpoint => (.unlinkFile checkpoint, disk)
  | .unlinkFile checkpoint =>
    match outcome with
    | .done _ => (.report checkpoint false, { disk with temporary := none })
    | _ => (.report checkpoint false, disk)
  | .closeFile checkpoint data =>
    match outcome with
    | .done _ => (.renameFile checkpoint data, disk)
    | _ => (.unlinkFile checkpoint, disk)
  | .renameFile checkpoint _ =>
    match outcome, disk.temporary with
    | .done _, some content => (.openDirectory checkpoint, ⟨some content, none⟩)
    | _, _ => (.unlinkFile checkpoint, disk)
  | .openDirectory checkpoint =>
    match outcome with
    | .done _ => (.syncDirectory checkpoint, disk)
    | _ => (.report checkpoint false, disk)
  | .syncDirectory checkpoint =>
    match outcome with
    | .done _ => (.closeDirectory checkpoint true, disk)
    | .interrupted => (.syncDirectory checkpoint, disk)
    | .failed => (.closeDirectory checkpoint false, disk)
  | .closeDirectory checkpoint synced =>
    match outcome with
    | .done _ => (.report checkpoint synced, disk)
    | _ => (.report checkpoint false, disk)
  | writer => (writer, disk)

end CheckpointStore

/-! ### The system -/

/-- A store at work: the store, the files, where the writer is and whether the owner waits for
it in `stop`; and a record of the file that was found, of the accepted checkpoints in their
order, and of those that were replaced while they waited (with those that replaced them),
committed, or not committed. -/
structure StoreRun where
  store : CheckpointStore
  disk : Disk
  writer : CheckpointStore.Writer
  joining : Bool
  crashed : Bool
  found : Option Bytes
  accepted : List ServerCheckpoint
  replaced : List (ServerCheckpoint × ServerCheckpoint)
  committed : List ServerCheckpoint
  failed : List ServerCheckpoint

namespace StoreRun

open CheckpointStore

/-- The steps of the owner, with what its calls return, and of the writer. -/
inductive Label where
  | start (created result : Bool)
  | submit (checkpoint : ServerCheckpoint) (result : Bool)
  | flush (result : Bool)
  | stop (result : Bool)
  | requestStop
  | completeStop (result : Bool)
  | take (checkpoint : ServerCheckpoint)
  | exit
  | commit (outcome : Outcome)
  | finish (checkpoint : ServerCheckpoint) (committed : Bool)
  | crash

/-- The step is the return of `flush` or `stop` with success. -/
def Label.Confirms : Label → Prop
  | .flush result | .stop result | .completeStop result => result = true
  | _ => False

/-- The record after a checkpoint was accepted. -/
def accept (run : StoreRun) (checkpoint : ServerCheckpoint) (store : CheckpointStore) :
    StoreRun :=
  { run with
    store
    accepted := run.accepted ++ [checkpoint]
    replaced := run.replaced ++ run.store.pendingCheckpoint.toList.map (·, checkpoint) }

def Step (run : StoreRun) (label : Label) (run' : StoreRun) : Prop :=
  run.crashed = false ∧
  match label with
  | .start created result =>
    run.joining = false ∧ (run.store.start created).1 = result
      ∧ run' = { run with
        store := (run.store.start created).2
        writer := if result then .waiting else run.writer }
  | .submit checkpoint result =>
    run.joining = false ∧ (run.store.submit checkpoint).1 = result
      ∧ run' = if result then run.accept checkpoint (run.store.submit checkpoint).2 else run
  | .flush result => run.joining = false ∧ run.store.flush = some result ∧ run' = run
  | .stop result =>
    run.joining = false ∧ run.store.requestStop = .inl result ∧ run' = run
  | .requestStop =>
    run.joining = false ∧ ∃ store, run.store.requestStop = .inr store
      ∧ run' = { run with store, joining := true }
  | .completeStop result =>
    run.joining = true ∧ run.writer = .exited ∧ run.store.completeStop.1 = result
      ∧ run' = { run with
        store := run.store.completeStop.2
        writer := .absent
        joining := false }
  | .take checkpoint =>
    run.writer = .waiting ∧ run.store.pendingCheckpoint = some checkpoint
      ∧ run' = { run with store := run.store.take, writer := .encode checkpoint }
  | .exit =>
    run.writer = .waiting ∧ run.store.stopping = true ∧ run.store.pendingCheckpoint = none
      ∧ run' = { run with writer := .exited }
  | .commit outcome =>
    run' = { run with
      writer := (commitStep outcome run.disk run.writer).1
      disk := (commitStep outcome run.disk run.writer).2 }
  | .finish checkpoint committed =>
    run.writer = .report checkpoint committed
      ∧ run' = { run with
        store := run.store.settle checkpoint committed
        writer := .waiting
        committed := if committed then run.committed ++ [checkpoint] else run.committed
        failed := if committed then run.failed else run.failed ++ [checkpoint] }
  | .crash => run' = { run with crashed := true }

/-- A store that was created and loaded, with success or because there was no file. -/
def Loaded (run : StoreRun) : Prop :=
  ∃ path opens reads closes state,
    (CheckpointStore.new path).load run.disk opens reads closes = some (state, run.store)
    ∧ (state = .success ∨ state = .notFound)
    ∧ run.writer = .absent ∧ run.joining = false ∧ run.crashed = false
    ∧ run.found = run.disk.path ∧ run.accepted = [] ∧ run.replaced = []
    ∧ run.committed = [] ∧ run.failed = []

def system : System StoreRun Label where
  Initial := Loaded
  Step := Step

end StoreRun

end RoomServer
