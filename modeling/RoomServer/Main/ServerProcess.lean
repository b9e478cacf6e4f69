import RoomServer.Benchmarks.CheckpointGenerator

/-!
# The server process

`main` loads the checkpoint, or adds the default room when there is none; it sets up the timers
and the listening server, starts the persistence service and the signals, and runs the base
loop.  When the loop ends everything is stopped, and the exit code says whether all of it
succeeded; a start that fails is undone, and the exit code is 1.

A process may be killed at any moment.  The next one starts on the files as they are, so that
the lifetimes of the processes on one path follow each other in a single run.  Two processes at
the same time are not modelled: the second fails to listen on the port.
-/

namespace RoomServer

/-- Where `main` is: before the load, before the timers and the server are set up, before the
persistence service starts, in its `start` that undoes itself, before the signals start, in the
base loop, in the `stop` of the persistence service with what has succeeded so far, in the one
that undoes the start, before the signals stop, or at the end with the exit code. -/
inductive ServerProcess.Pc where
  | load
  | setUp
  | startPersistence
  | undoStart
  | startSignal
  | loop
  | stopPersistence (success : Bool)
  | rollback
  | stopSignal (success : Bool)
  | exited (code : Nat)

/-- A process at work, and a record of the rooms at every checkpoint that was submitted on the
path, in this process or an earlier one. -/
structure ServerProcess where
  service : PersistenceService
  pc : ServerProcess.Pc
  saved : List RoomService

namespace ServerProcess

abbrev defaultRoomId : UInt32 := 1
abbrev defaultRoomCapacity : UInt64 := 4
abbrev reconnectTimeout : Int := 30000
abbrev checkpointPath : String := "data/server.checkpoint"

/-- A new process on the files. -/
def boot (disk : Disk) (saved : List RoomService) : ServerProcess where
  service := .new (.new reconnectTimeout) checkpointPath disk
  pc := .load
  saved := saved

/-- The process after the load, with the service it gives. -/
def loaded (process : ServerProcess) (state : PersistenceService.Loadstates)
    (service : PersistenceService) : ServerProcess :=
  match state with
  | .restored => { process with service, pc := .setUp }
  | .notFound =>
    match service.roomService.addRoom true defaultRoomId defaultRoomCapacity with
    | (true, roomService) =>
      { process with service := { service with roomService }, pc := .setUp }
    | (false, roomService) =>
      { process with service := { service with roomService }, pc := .exited 1 }
  | .invalidState | .ioError | .decodeError | .restoreError =>
    { process with service, pc := .exited 1 }

/-- Start the persistence service; without it the process exits. -/
def startPersistence (process : ServerProcess) (created timerValid timerStarts : Bool) :
    ServerProcess :=
  let service := process.service.start created timerValid timerStarts
  match service.started, service.pc with
  | true, _ => { process with service, pc := .startSignal }
  | false, .ready => { process with service, pc := .exited 1 }
  | false, _ => { process with service, pc := .undoStart }

/-- The record after a save. -/
def recorded (process : ServerProcess) : List RoomService :=
  if process.service.saveNow.1 then
    process.saved ++ [process.service.roomService]
  else
    process.saved

def handleTimer (process : ServerProcess) : ServerProcess :=
  { process with service := process.service.saveNow.2, saved := process.recorded }

/-- Where `main` is after the `stop` of the persistence service. -/
def Pc.afterStop (result : Bool) : Pc → Pc
  | .stopPersistence success => .stopSignal (success && result)
  | .undoStart | .rollback => .exited 1
  | pc => pc

/-- Call `stop` of the persistence service; a service that was not started returns at once. -/
def stopAt (process : ServerProcess) (timerStops : Bool) (pc : Pc) : ServerProcess :=
  if process.service.started then
    { process with
      service := process.service.stop timerStops
      pc
      saved := process.recorded }
  else
    { process with pc := pc.afterStop false }

/-! ### The system -/

/-- What happens: the process is replaced by a new one; `main` takes a step, given what the
calls do; the base loop runs a task; the persistence service waits in its `stop` or returns from
it; the writer takes a step. -/
inductive Label where
  | boot
  | load (opens : Bool) (reads : List Outcome) (closes : Bool) (now : Int)
  | setUp (success : Bool)
  | start (created timerValid timerStarts : Bool)
  | startSignal (success timerStops : Bool)
  | task (task : RoomServer.Task) (answers : Answers)
  | reorder
  | handleTimer
  | quit (loopSucceeded timersStopped timerStops : Bool)
  | flush
  | requestStop
  | stopped (result : Bool)
  | stopSignal (success : Bool)
  | writer (label : StoreRun.Label)

def Step (process : ServerProcess) (label : Label) (process' : ServerProcess) : Prop :=
  match label with
  | .boot => process' = boot process.service.run.disk process.saved
  | .load opens reads closes now =>
    process.pc = .load ∧ ∃ state service,
      process.service.load opens reads closes now = some (state, service)
        ∧ process' = process.loaded state service
  | .setUp success =>
    process.pc = .setUp
      ∧ process' = { process with pc := if success then .startPersistence else .exited 1 }
  | .start created timerValid timerStarts =>
    process.pc = .startPersistence
      ∧ process' = process.startPersistence created timerValid timerStarts
  | .startSignal success timerStops =>
    process.pc = .startSignal
      ∧ process' = if success then { process with pc := .loop }
        else process.stopAt timerStops .rollback
  | .task task answers =>
    process.pc = .loop ∧ RoomService.TokenGenerated task ∧ process' = { process with
      service := { process.service with
        roomService := (process.service.roomService.run answers task).1 } }
  | .reorder =>
    process.pc = .loop ∧ ∃ roomService, process.service.roomService.Reordered roomService
      ∧ process' = { process with service := { process.service with roomService } }
  | .handleTimer => process.pc = .loop ∧ process' = process.handleTimer
  | .quit loopSucceeded timersStopped timerStops =>
    process.pc = .loop
      ∧ process' = process.stopAt timerStops (.stopPersistence (loopSucceeded && timersStopped))
  | .flush =>
    ∃ service, process.service.Step .flush service ∧ process' = { process with service }
  | .requestStop =>
    ∃ service, process.service.Step .requestStop service ∧ process' = { process with service }
  | .stopped result =>
    ∃ service, process.service.Step (.stopped result) service
      ∧ process' = { process with service, pc := process.pc.afterStop result }
  | .stopSignal success =>
    ∃ succeeded, process.pc = .stopSignal succeeded
      ∧ process' = { process with pc := .exited (if succeeded && success then 0 else 1) }
  | .writer label =>
    ∃ service, process.service.Step (.writer label) service
      ∧ process' = { process with service }

/-- The first process finds no file, or what a run of the generator has left, finished or not. -/
def system : System ServerProcess Label where
  Initial process :=
    (∃ temporary, process = boot ⟨none, temporary⟩ [])
      ∨ ∃ generator, CheckpointGenerator.system.Reachable generator
        ∧ process = boot generator.run.disk [generator.service reconnectTimeout]
  Step := Step

end ServerProcess

end RoomServer
