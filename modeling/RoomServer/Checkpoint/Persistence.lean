import RoomServer.Checkpoint.StoreRuns
import RoomServer.Service.Runs

/-!
# The persistence service

The service loads the checkpoint of the store into the rooms, and then saves them: from time to
time, when it is asked to, and a last time when it stops.  It numbers its checkpoints, and the
store takes only those with a larger number than any before; so the number of the next checkpoint
has to stay ahead of the store, over failed loads and saves and over every stop and start.

The calls of the base loop are steps, and `stop` is cut where it waits for the writer, whose steps
go on in between.  The results of the timer are arbitrary, as are those of the system calls.
-/

namespace RoomServer

/-- Where the base loop is in a call of `stop`, with what has succeeded so far: in `flush`, before
the call of `stop` of the store (also when `start` gives up), and where that waits for the
writer. -/
inductive PersistenceService.Pc where
  | ready
  | flush (success : Bool)
  | stopStore (success : Bool)
  | join (success : Bool)

/-- The service with its store at work, and a record of the rooms at the last call of `stop`. -/
structure PersistenceService where
  roomService : RoomService
  run : StoreRun
  nextGeneration : UInt64
  loaded : Bool
  started : Bool
  pc : PersistenceService.Pc
  atStop : RoomService

namespace PersistenceService

abbrev maxGeneration : UInt64 := 18446744073709551615

/-- What a successful load of the store found in the file. -/
def fileCheckpoint : Option Bytes → ServerCheckpoint
  | none => ⟨0, [], []⟩
  | some data => (CheckpointCodec.decode data ⟨0, [], []⟩).2

/-- A service whose store has the path, with the files on the disk. -/
def new (roomService : RoomService) (path : String) (disk : Disk) : PersistenceService where
  roomService := roomService
  run := ⟨CheckpointStore.new path, disk, .absent, false, false, disk.path, [], [], [], []⟩
  nextGeneration := 1
  loaded := false
  started := false
  pc := .ready
  atStop := roomService

inductive Loadstates where
  | restored
  | notFound
  | invalidState
  | ioError
  | decodeError
  | restoreError
  deriving DecidableEq, Repr

def withStore (service : PersistenceService) (store : CheckpointStore) : PersistenceService :=
  { service with run := { service.run with store } }

/-- Load the checkpoint, given what the system calls of the store do. -/
def load (service : PersistenceService) (opens : Bool) (reads : List Outcome) (closes : Bool)
    (now : Int) : Option (Loadstates × PersistenceService) :=
  if service.loaded || service.started then
    some (.invalidState, service)
  else
    match service.run.store.load service.run.disk opens reads closes with
    | none => none
    | some (.notFound, store) =>
      some (.notFound, { service.withStore store with nextGeneration := 1, loaded := true })
    | some (.invalidState, store) => some (.invalidState, service.withStore store)
    | some (.ioError, store) => some (.ioError, service.withStore store)
    | some (.decodeError, store) => some (.decodeError, service.withStore store)
    | some (.success, store) =>
      let checkpoint := fileCheckpoint service.run.disk.path
      if checkpoint.generation = maxGeneration then
        some (.invalidState, service.withStore store)
      else
        match service.roomService.restoreCheckpoint true checkpoint now with
        | (true, roomService) =>
          some (.restored, { service.withStore store with
            roomService, nextGeneration := checkpoint.generation + 1, loaded := true })
        | (false, roomService) =>
          some (.restoreError, { service.withStore store with roomService })

/-- Start the store and the timer; the store is to stop again when the timer does not start. -/
def start (service : PersistenceService) (created timerValid timerStarts : Bool) :
    PersistenceService :=
  if !service.loaded || !timerValid || service.started then
    service
  else
    match service.run.store.start created with
    | (false, _) => service
    | (true, store) =>
      let service := { service with run := { service.run with store, writer := .waiting } }
      if timerStarts then
        { service with started := true }
      else
        { service with pc := .stopStore false }

/-- Submit a checkpoint of the rooms. -/
def saveNow (service : PersistenceService) : Bool × PersistenceService :=
  if !service.loaded || !service.started then
    (false, service)
  else if service.nextGeneration = maxGeneration then
    (false, service)
  else
    match service.roomService.makeCheckpoint true service.nextGeneration with
    | none => (false, service)
    | some temp =>
      match service.run.store.submit temp with
      | (false, _) => (false, service)
      | (true, store) =>
        (true, { service with
          run := service.run.accept temp store
          nextGeneration := service.nextGeneration + 1 })

/-- Stop, up to the wait for the writer. -/
def stop (service : PersistenceService) (timerStops : Bool) : PersistenceService :=
  if !service.started then
    service
  else
    { service.saveNow.2 with
      pc := .flush (timerStops && service.saveNow.1)
      atStop := service.roomService }

/-! ### The system -/

/-- The calls of the base loop and the returns of its waits, the tasks of the rooms, and the steps
of the writer. -/
inductive Label where
  | load (opens : Bool) (reads : List Outcome) (closes : Bool) (now : Int)
  | start (created timerValid timerStarts : Bool)
  | handleTimer
  | saveNow
  | stop (timerStops : Bool)
  | flush
  | requestStop
  | stopped (result : Bool)
  | business (action : RoomService.Action)
  | writer (label : StoreRun.Label)

/-- The steps of the writer. -/
def OfWriter : StoreRun.Label → Prop
  | .take _ | .exit | .commit _ | .finish _ _ => True
  | _ => False

def Step (service : PersistenceService) (label : Label) (service' : PersistenceService) : Prop :=
  match label with
  | .load opens reads closes now =>
    service.pc = .ready ∧ ∃ state, service.load opens reads closes now = some (state, service')
  | .start created timerValid timerStarts =>
    service.pc = .ready ∧ service' = service.start created timerValid timerStarts
  | .handleTimer | .saveNow => service.pc = .ready ∧ service' = service.saveNow.2
  | .stop timerStops => service.pc = .ready ∧ service' = service.stop timerStops
  | .flush =>
    ∃ success result, service.pc = .flush success ∧ service.run.store.flush = some result
      ∧ service' = { service with pc := .stopStore (success && result) }
  | .requestStop =>
    ∃ success store, service.pc = .stopStore success
      ∧ service.run.store.requestStop = .inr store
      ∧ service' = { service with
        run := { service.run with store, joining := true }, pc := .join success }
  | .stopped result =>
    (∃ success complete, service.pc = .stopStore success
        ∧ service.run.store.requestStop = .inl complete ∧ result = (success && complete)
        ∧ service' = { service with started := false, pc := .ready })
      ∨ ∃ success, service.pc = .join success ∧ service.run.writer = .exited
        ∧ result = (success && service.run.store.completeStop.1)
        ∧ service' = { service with
          run := { service.run with
            store := service.run.store.completeStop.2, writer := .absent, joining := false }
          started := false
          pc := .ready }
  | .business action =>
    service.pc = .ready
      ∧ ∃ roomService, RoomService.system.Step service.roomService action roomService
      ∧ service' = { service with roomService }
  | .writer label =>
    ∃ run, OfWriter label ∧ service.run.Step label run ∧ service' = { service with run }

def system : System PersistenceService Label where
  Initial service := ∃ roomService path disk, service = new roomService path disk
  Step := Step

/-! ### Loading -/

/-- A store that was created for the path, and may have read its file. -/
def unstartedStore (path : String) (generation : UInt64) : CheckpointStore :=
  { CheckpointStore.new path with
    lastSubmittedGeneration := generation
    lastCommittedGeneration := generation }

/-- A load that has failed before does not matter to the next one. -/
theorem load_unstarted {path : String} {generation : UInt64} {disk : Disk} {opens closes : Bool}
    {reads : List Outcome} {state : CheckpointStore.Loadstates} {store : CheckpointStore}
    (hgeneration : generation = 0 ∨ generation = fileGeneration disk.path)
    (h : (unstartedStore path generation).load disk opens reads closes = some (state, store)) :
  (state = .success ∨ state = .notFound →
      (CheckpointStore.new path).load disk opens reads closes = some (state, store))
    ∧ ∃ generation', store = unstartedStore path generation'
      ∧ (generation' = 0 ∨ generation' = fileGeneration disk.path)
  := by
  have hoccupied : (unstartedStore path generation).occupied
      = (CheckpointStore.new path).occupied := rfl
  have hsame : ∃ generation', unstartedStore path generation = unstartedStore path generation'
      ∧ (generation' = 0 ∨ generation' = fileGeneration disk.path) := ⟨generation, rfl, hgeneration⟩
  rw [CheckpointStore.load, hoccupied] at h
  rw [CheckpointStore.load]
  split at h
  · cases h
    refine ⟨?_, hsame⟩
    rintro (hstate | hstate) <;> cases hstate
  next hfree =>
  rw [if_neg hfree]
  split at h
  · next hpath =>
    cases h
    refine ⟨?_, hsame⟩
    intro _
    rw [hpath, fileGeneration, or_self] at hgeneration
    rw [hgeneration]
    rfl
  next content hpath =>
  split at h
  · cases h
    refine ⟨?_, hsame⟩
    rintro (hstate | hstate) <;> cases hstate
  next hopens =>
  rw [if_neg hopens]
  split at h
  · cases h
  · cases h
    refine ⟨?_, hsame⟩
    rintro (hstate | hstate) <;> cases hstate
  · cases h
    refine ⟨?_, hsame⟩
    split <;> rintro (hstate | hstate) <;> cases hstate
  next data hread =>
  split at h
  · cases h
    refine ⟨?_, hsame⟩
    rintro (hstate | hstate) <;> cases hstate
  next hcloses =>
  rw [if_neg hcloses]
  split at h
  · next checkpoint hdecode =>
    cases h
    constructor
    · intro _
      rfl
    · use checkpoint.generation, rfl
      right
      rw [readLoop_complete hread, List.nil_append] at hdecode
      rw [hpath, fileGeneration, hdecode]
  · cases h
    refine ⟨?_, hsame⟩
    rintro (hstate | hstate) <;> cases hstate

/-- There is no file when a load does not find one. -/
theorem path_of_notFound {store store' : CheckpointStore} {disk : Disk} {opens closes : Bool}
    {reads : List Outcome} (h : store.load disk opens reads closes = some (.notFound, store')) :
  disk.path = none
  := by
  rw [CheckpointStore.load] at h
  split at h
  · cases h
  split at h
  · next hpath => exact hpath
  split at h
  · cases h
  split at h
  · cases h
  · cases h
  · rw [Option.some.injEq, Prod.mk.injEq] at h
    split at h <;> cases h.1
  split at h
  · cases h
  split at h <;> cases h

/-! ### The invariant -/

/-- What has succeeded so far in the call of `stop` that is going on. -/
def Pc.success : Pc → Bool
  | .ready => false
  | .flush success | .stopStore success | .join success => success

/-- What holds between any two steps.  Before a load has succeeded the store is untouched, but it
may know the generation of its file; then it runs from a load that has succeeded, and the next
checkpoint is newer than all it was given. -/
structure Inv (service : PersistenceService) : Prop where
  unloaded : service.loaded = false →
    service.started = false ∧ service.pc = .ready ∧ ∃ path generation,
      (generation = 0 ∨ generation = fileGeneration service.run.disk.path)
        ∧ service.run = ⟨unstartedStore path generation, service.run.disk, .absent, false, false,
          service.run.disk.path, [], [], [], []⟩
  run : service.loaded = true → StoreRun.system.Reachable service.run
    ∧ service.run.crashed = false
    ∧ service.run.store.lastSubmittedGeneration < service.nextGeneration
  started : service.started = true →
    service.loaded = true ∧ service.run.store.valid = true ∧ service.run.store.started = true
  joining : service.run.joining = true ↔ ∃ success, service.pc = .join success
  /-- A call of `stop` that has saved the rooms has submitted the last checkpoint. -/
  saved : service.pc.success = true → ∃ c, service.run.accepted.getLast? = some c
    ∧ service.atStop.makeCheckpoint true c.generation = some c

variable {service service' : PersistenceService}

theorem inv_new (roomService : RoomService) (path : String) (disk : Disk) :
  (new roomService path disk).Inv
  := by
  constructor
  · intro _
    exact ⟨rfl, rfl, path, 0, .inl rfl, rfl⟩
  · intro h
    cases h
  · intro h
    cases h
  · constructor
    · intro h
      cases h
    · rintro ⟨success, ⟨⟩⟩
  · intro h
    cases h

theorem lt_add_one {generation next : UInt64} (h : next ≠ maxGeneration)
    (hle : generation ≤ next) :
  generation < next + 1
  := by
  have hne : next.toNat ≠ 18446744073709551615 := by
    intro heq
    apply h
    apply UInt64.toNat_inj.mp
    rw [heq]
    rfl
  have hlt := next.toNat_lt
  rw [UInt64.le_iff_toNat_le] at hle
  rw [UInt64.lt_iff_toNat_lt, UInt64.toNat_add]
  simp only [UInt64.toNat_one]
  omega

/-- A load that does not succeed leaves the service as it was, but for the generation that the
store has read; one that succeeds puts the next generation ahead of it. -/
theorem load_cases {opens closes : Bool} {reads : List Outcome} {now : Int} {state : Loadstates}
    (h : service.load opens reads closes now = some (state, service')) :
  service' = service
    ∨ service.loaded = false ∧ ∃ state store roomService,
      service.run.store.load service.run.disk opens reads closes = some (state, store)
        ∧ (service' = { service.withStore store with roomService }
          ∨ state = .notFound
            ∧ service' = { service.withStore store with nextGeneration := 1, loaded := true }
          ∨ state = .success
            ∧ (fileCheckpoint service.run.disk.path).generation ≠ maxGeneration
            ∧ service' = { service.withStore store with
              roomService
              nextGeneration := (fileCheckpoint service.run.disk.path).generation + 1
              loaded := true })
  := by
  rw [load] at h
  split at h
  · left
    cases h
    rfl
  next hfresh =>
  right
  simp only [Bool.or_eq_true, not_or, Bool.not_eq_true] at hfresh
  use hfresh.1
  split at h
  · cases h
  · next store hstore =>
    cases h
    exact ⟨_, store, service.roomService, hstore, .inr (.inl ⟨rfl, rfl⟩)⟩
  · next store hstore =>
    cases h
    exact ⟨_, store, service.roomService, hstore, .inl rfl⟩
  · next store hstore =>
    cases h
    exact ⟨_, store, service.roomService, hstore, .inl rfl⟩
  · next store hstore =>
    cases h
    exact ⟨_, store, service.roomService, hstore, .inl rfl⟩
  · next store hstore =>
    dsimp only at h
    split at h
    · cases h
      exact ⟨_, store, service.roomService, hstore, .inl rfl⟩
    next hgeneration =>
    split at h
    · next roomService _ =>
      cases h
      exact ⟨_, store, roomService, hstore, .inr (.inr ⟨rfl, hgeneration, rfl⟩)⟩
    · next roomService _ =>
      cases h
      exact ⟨_, store, roomService, hstore, .inl rfl⟩

theorem generation_fileCheckpoint (file : Option Bytes) :
  (fileCheckpoint file).generation = fileGeneration file
  := by
  cases file <;> rfl

theorem Inv.load (h : service.Inv) {opens closes : Bool} {reads : List Outcome} {now : Int}
    {state : Loadstates}
    (hload : service.load opens reads closes now = some (state, service')) :
  service'.Inv
  := by
  obtain rfl | ⟨hloaded, state', store, roomService, hstore, hcases⟩ := load_cases hload
  · exact h
  obtain ⟨hstarted, hpc, path, generation, hgeneration, hrun⟩ := h.unloaded hloaded
  have hsame : service.run.store = unstartedStore path generation := by rw [hrun]
  rw [hsame] at hstore
  obtain ⟨hfirst, generation', rfl, hgeneration'⟩ := load_unstarted hgeneration hstore
  have hjoining : (service.withStore (unstartedStore path generation')).run.joining = true ↔
      ∃ success, service.pc = .join success := by
    rw [withStore, hrun, hpc]
    simp
  have hready : service.pc.success = true → ∃ c, (service.withStore
      (unstartedStore path generation')).run.accepted.getLast? = some c
        ∧ service.atStop.makeCheckpoint true c.generation = some c := by
    rw [hpc]
    intro hsuccess
    cases hsuccess
  have hready' : service.started ≠ true := by
    rw [hstarted]
    apply Bool.false_ne_true
  have hreachable : state' = .success ∨ state' = .notFound →
      StoreRun.system.Reachable (service.withStore (unstartedStore path generation')).run
        ∧ generation' = fileGeneration service.run.disk.path := by
    intro hstate
    have hload := hfirst hstate
    constructor
    · apply System.ReachableBy.initial
      refine ⟨path, opens, reads, closes, state', hload, hstate, ?_⟩
      rw [withStore, hrun]
      exact ⟨rfl, rfl, rfl, rfl, rfl, rfl, rfl, rfl⟩
    · apply congrArg CheckpointStore.lastSubmittedGeneration (load_spec hload hstate)
  have hcrashed : (service.withStore (unstartedStore path generation')).run.crashed = false := by
    rw [withStore, hrun]
  obtain rfl | ⟨rfl, rfl⟩ | ⟨rfl, hmax, rfl⟩ := hcases
  · constructor
    · intro _
      refine ⟨hstarted, hpc, path, generation', hgeneration', ?_⟩
      rw [withStore, hrun]
    · intro h
      exact absurd (hloaded.symm.trans h) Bool.false_ne_true
    · intro h
      exact absurd h hready'
    · exact hjoining
    · exact hready
  · obtain ⟨hreach, hfile⟩ := hreachable (.inr rfl)
    constructor
    · intro h
      cases h
    · intro _
      refine ⟨hreach, hcrashed, ?_⟩
      change generation' < 1
      rw [hfile, path_of_notFound hstore]
      decide
    · intro h
      exact absurd h hready'
    · exact hjoining
    · exact hready
  · obtain ⟨hreach, hfile⟩ := hreachable (.inl rfl)
    constructor
    · intro h
      cases h
    · intro _
      refine ⟨hreach, hcrashed, ?_⟩
      apply lt_add_one hmax
      rw [generation_fileCheckpoint, ← hfile]
      apply UInt64.le_refl _
    · intro h
      exact absurd h hready'
    · exact hjoining
    · exact hready

theorem makeCheckpoint_generation {roomService : RoomService} {generation : UInt64}
    {checkpoint : ServerCheckpoint}
    (h : roomService.makeCheckpoint true generation = some checkpoint) :
  checkpoint.generation = generation ∧ generation ≠ 0
  := by
  rw [RoomService.makeCheckpoint] at h
  split at h
  · cases h
  · next hne =>
    simp only [Bool.not_true, Bool.false_eq_true, if_false, Option.bind_eq_bind,
      Option.bind_eq_some_iff, Option.pure_def, Option.ite_none_left_eq_some,
      Option.some.injEq] at h
    obtain ⟨rooms, -, sessions, -, -, rfl⟩ := h
    exact ⟨rfl, hne⟩

/-- A save does nothing, or it submits a checkpoint of the rooms with the next generation. -/
theorem saveNow_cases (service : PersistenceService) :
  service.saveNow = (false, service)
    ∨ ∃ temp store, service.loaded = true ∧ service.started = true
      ∧ service.nextGeneration ≠ maxGeneration
      ∧ service.roomService.makeCheckpoint true service.nextGeneration = some temp
      ∧ service.run.store.submit temp = (true, store)
      ∧ service.saveNow = (true, { service with
        run := service.run.accept temp store
        nextGeneration := service.nextGeneration + 1 })
  := by
  rw [saveNow]
  split
  · left
    rfl
  next hready =>
  split
  · left
    rfl
  next hgeneration =>
  split
  · left
    rfl
  next temp htemp =>
  split
  · left
    rfl
  next store hsubmit =>
  right
  simp only [Bool.or_eq_true, Bool.not_eq_true', not_or, Bool.not_eq_false] at hready
  exact ⟨temp, store, hready.1, hready.2, hgeneration, htemp, hsubmit, rfl⟩

theorem Inv.not_joining (h : service.Inv) (hpc : ∀ success, service.pc ≠ .join success) :
  service.run.joining = false
  := by
  by_contra hjoining
  rw [Bool.not_eq_false] at hjoining
  obtain ⟨success, heq⟩ := h.joining.mp hjoining
  apply hpc success heq

theorem Inv.loaded_of_busy (h : service.Inv) (hpc : service.pc ≠ .ready) :
  service.loaded = true
  := by
  by_contra hloaded
  rw [Bool.not_eq_true] at hloaded
  apply hpc (h.unloaded hloaded).2.1

/-- The next generation stays ahead of the store when a checkpoint is submitted. -/
theorem Inv.saveNow (h : service.Inv) (hpc : service.pc = .ready) :
  service.saveNow.2.Inv
  := by
  obtain heq | ⟨temp, store, hloaded, hstarted, hmax, htemp, hsubmit, heq⟩ := service.saveNow_cases
  · rw [heq]
    exact h
  rw [heq]
  obtain ⟨hreachable, hcrashed, -⟩ := h.run hloaded
  have hjoining := h.not_joining (by simp [hpc])
  have hstep : service.run.Step (.submit temp true) (service.run.accept temp store) := by
    refine ⟨hcrashed, hjoining, ?_, ?_⟩
    · rw [hsubmit]
    · rw [hsubmit]
      rfl
  have hreachable' : StoreRun.system.Reachable (service.run.accept temp store) :=
    hreachable.step (ℓ := .submit temp true) trivial hstep
  have hgeneration := (makeCheckpoint_generation htemp).1
  obtain ⟨hvalid, hstore⟩ : store.valid = service.run.store.valid
      ∧ store.started = true ∧ store.lastSubmittedGeneration = temp.generation := by
    obtain hrefused | ⟨haccepted, hrunning, -⟩ := StoreRun.submit_cases service.run.store temp
    · rw [hrefused] at hsubmit
      cases hsubmit
    · rw [haccepted] at hsubmit
      cases hsubmit
      exact ⟨rfl, hrunning, rfl⟩
  constructor
  · intro hunloaded
    rw [hloaded] at hunloaded
    cases hunloaded
  · intro _
    refine ⟨hreachable', hcrashed, ?_⟩
    apply lt_add_one hmax
    rw [← hgeneration, ← hstore.2]
    apply UInt64.le_refl _
  · intro _
    use hloaded
    constructor
    · apply hvalid.trans (h.started hstarted).2.1
    · apply hstore.1
  · apply h.joining
  · intro hsuccess
    rw [hpc] at hsuccess
    cases hsuccess

/-- A started service accepts a checkpoint of its rooms. -/
theorem Inv.saveNow_succeeds (h : service.Inv) (hpc : service.pc = .ready)
    (hstarted : service.started = true) (hmax : service.nextGeneration ≠ maxGeneration)
    {checkpoint : ServerCheckpoint}
    (hcheckpoint : service.roomService.makeCheckpoint true service.nextGeneration
      = some checkpoint) :
  service.saveNow.1 = true ∧ service.saveNow.2.run.accepted = service.run.accepted ++ [checkpoint]
  := by
  obtain ⟨hloaded, hvalid, hrunning⟩ := h.started hstarted
  obtain ⟨hreachable, -, hahead⟩ := h.run hloaded
  obtain ⟨hgeneration, hnonzero⟩ := makeCheckpoint_generation hcheckpoint
  have hstopping : service.run.store.stopping = false := by
    by_contra hstopping
    rw [Bool.not_eq_false] at hstopping
    have hjoining := (StoreRun.inv_of_reachable hreachable).stopping hstopping
    rw [h.not_joining (by simp [hpc])] at hjoining
    cases hjoining
  have hsubmit : service.run.store.submit checkpoint = (true, { service.run.store with
      pendingCheckpoint := some checkpoint
      lastSubmittedGeneration := checkpoint.generation }) := by
    rw [CheckpointStore.submit, if_neg]
    rw [hvalid, hrunning, hstopping, hgeneration]
    simp [hnonzero, UInt64.not_le.mpr hahead]
  rw [PersistenceService.saveNow, hloaded, hstarted, if_neg (by simp), if_neg hmax, hcheckpoint]
  dsimp only
  rw [hsubmit]
  exact ⟨rfl, rfl⟩

theorem valid_of_start {store : CheckpointStore} {created : Bool}
    (h : (store.start created).1 = true) :
  store.valid = true
  := by
  rw [CheckpointStore.start] at h
  split at h
  · cases h
  · next hfree =>
    simp only [CheckpointStore.occupied, Bool.or_eq_true, not_or, Bool.not_eq_true,
      Bool.not_eq_false'] at hfree
    apply hfree.1.1.1.1

theorem Inv.start (h : service.Inv) (hpc : service.pc = .ready)
    (created timerValid timerStarts : Bool) :
  (service.start created timerValid timerStarts).Inv
  := by
  rw [PersistenceService.start]
  split
  · exact h
  next hguard =>
  simp only [Bool.or_eq_true, Bool.not_eq_true', not_or, Bool.not_eq_false,
    Bool.not_eq_true] at hguard
  obtain ⟨⟨hloaded, -⟩, hstarted⟩ := hguard
  split
  · exact h
  next store hstart =>
  obtain ⟨hreachable, hcrashed, hahead⟩ := h.run hloaded
  have hjoining := h.not_joining (by simp [hpc])
  have hstep : service.run.Step (.start created true)
      { service.run with store, writer := .waiting } := by
    refine ⟨hcrashed, hjoining, ?_, ?_⟩
    · rw [hstart]
    · rw [hstart]
      rfl
  have hreachable' : StoreRun.system.Reachable { service.run with store, writer := .waiting } :=
    hreachable.step (ℓ := .start created true) trivial hstep
  have hstore : store = { service.run.store with started := true } := by
    obtain hrefused | ⟨haccepted, -⟩ := StoreRun.start_cases service.run.store created
    · rw [hrefused] at hstart
      cases hstart
    · rw [haccepted] at hstart
      cases hstart
      rfl
  have hvalid : service.run.store.valid = true := by
    apply @valid_of_start _ created
    rw [hstart]
  have hnone : ¬ ∃ success, service.pc = .join success := by simp [hpc]
  split
  · constructor
    · intro hunloaded
      rw [hloaded] at hunloaded
      cases hunloaded
    · intro _
      refine ⟨hreachable', hcrashed, ?_⟩
      rw [hstore]
      exact hahead
    · intro _
      rw [hstore]
      exact ⟨hloaded, hvalid, rfl⟩
    · apply h.joining
    · intro hsuccess
      rw [hpc] at hsuccess
      cases hsuccess
  · constructor
    · intro hunloaded
      rw [hloaded] at hunloaded
      cases hunloaded
    · intro _
      refine ⟨hreachable', hcrashed, ?_⟩
      rw [hstore]
      exact hahead
    · intro hstarted'
      rw [hstarted] at hstarted'
      cases hstarted'
    · constructor
      · intro hjoins
        rw [hjoining] at hjoins
        cases hjoins
      · rintro ⟨success, ⟨⟩⟩
    · intro hsuccess
      cases hsuccess

theorem Inv.stop (h : service.Inv) (hpc : service.pc = .ready) (timerStops : Bool) :
  (service.stop timerStops).Inv
  := by
  rw [PersistenceService.stop]
  split
  · exact h
  next hstarted =>
  rw [Bool.not_eq_true', Bool.not_eq_false] at hstarted
  have hsave := h.saveNow hpc
  have hloaded := (h.started hstarted).1
  have hsame : service.saveNow.2.pc = .ready ∧ service.saveNow.2.loaded = true
      ∧ (service.saveNow.1 = true → ∃ c, service.saveNow.2.run.accepted.getLast? = some c
        ∧ service.roomService.makeCheckpoint true c.generation = some c) := by
    obtain heq | ⟨temp, _, -, -, -, htemp, -, heq⟩ := service.saveNow_cases
    · rw [heq]
      refine ⟨hpc, hloaded, ?_⟩
      intro hsaved
      cases hsaved
    · rw [heq]
      refine ⟨hpc, hloaded, ?_⟩
      intro _
      use temp, List.getLast?_concat
      rw [(makeCheckpoint_generation htemp).1]
      exact htemp
  obtain ⟨hpc', hloaded', hlast⟩ := hsame
  constructor
  · intro hunloaded
    exact absurd (hloaded'.symm.trans hunloaded) (by simp)
  · apply hsave.run
  · apply hsave.started
  · constructor
    · intro hjoining
      rw [hsave.not_joining (by simp [hpc'])] at hjoining
      cases hjoining
    · rintro ⟨success, ⟨⟩⟩
  · intro hsuccess
    simp only [Pc.success, Bool.and_eq_true] at hsuccess
    apply hlast hsuccess.2

/-- The base loop waits, and what has succeeded so far becomes no more. -/
theorem Inv.wait (h : service.Inv) {pc : Pc} (hbusy : service.pc ≠ .ready)
    (hpc : ∀ success, service.pc ≠ .join success) (hpc' : ∀ success, pc ≠ .join success)
    (hsuccess : pc.success = true → service.pc.success = true) :
  Inv { service with pc }
  := by
  have hloaded := h.loaded_of_busy hbusy
  constructor
  · intro hunloaded
    exact absurd (hloaded.symm.trans hunloaded) (by simp)
  · apply h.run
  · apply h.started
  · constructor
    · intro hjoining
      obtain ⟨success, heq⟩ := h.joining.mp hjoining
      exact absurd heq (hpc success)
    · rintro ⟨success, heq⟩
      exact absurd heq (hpc' success)
  · intro hpcs
    apply h.saved (hsuccess hpcs)

/-- The steps of the writer leave alone what the owner of the store sees. -/
structure SameOwner (run run' : StoreRun) : Prop where
  valid : run'.store.valid = run.store.valid
  started : run'.store.started = run.store.started
  submitted : run'.store.lastSubmittedGeneration = run.store.lastSubmittedGeneration
  accepted : run'.accepted = run.accepted
  joining : run'.joining = run.joining
  crashed : run'.crashed = run.crashed

theorem sameOwner_of_writer {run run' : StoreRun} {label : StoreRun.Label}
    (hlabel : OfWriter label) (hstep : run.Step label run') :
  SameOwner run run' ∧ (run.writer = .absent → run' = run)
  := by
  obtain ⟨-, hstep⟩ := hstep
  cases label with
  | take checkpoint =>
    obtain ⟨hwriter, -, rfl⟩ := hstep
    refine ⟨⟨rfl, rfl, rfl, rfl, rfl, rfl⟩, ?_⟩
    intro habsent
    rw [habsent] at hwriter
    cases hwriter
  | exit =>
    obtain ⟨hwriter, -, -, rfl⟩ := hstep
    refine ⟨⟨rfl, rfl, rfl, rfl, rfl, rfl⟩, ?_⟩
    intro habsent
    rw [habsent] at hwriter
    cases hwriter
  | commit outcome =>
    cases hstep
    refine ⟨⟨rfl, rfl, rfl, rfl, rfl, rfl⟩, ?_⟩
    intro habsent
    rw [habsent]
    exact congrArg (fun writer => { run with writer }) habsent.symm
  | finish checkpoint committed =>
    obtain ⟨hwriter, rfl⟩ := hstep
    constructor
    · cases committed <;> exact ⟨rfl, rfl, rfl, rfl, rfl, rfl⟩
    · intro habsent
      rw [habsent] at hwriter
      cases hwriter
  | _ => cases hlabel

theorem Inv.writer (h : service.Inv) {label : StoreRun.Label} {run : StoreRun}
    (hlabel : OfWriter label) (hstep : service.run.Step label run) :
  Inv { service with run }
  := by
  obtain ⟨hsame, habsent⟩ := sameOwner_of_writer hlabel hstep
  by_cases hloaded : service.loaded = true
  · obtain ⟨hreachable, hcrashed, hahead⟩ := h.run hloaded
    constructor
    · intro hunloaded
      exact absurd (hloaded.symm.trans hunloaded) (by simp)
    · intro _
      refine ⟨hreachable.step (ℓ := label) trivial hstep, hsame.crashed.trans hcrashed, ?_⟩
      dsimp only
      rw [hsame.submitted]
      exact hahead
    · intro hstarted
      obtain ⟨-, hvalid, hrunning⟩ := h.started hstarted
      exact ⟨hloaded, hsame.valid.trans hvalid, hsame.started.trans hrunning⟩
    · dsimp only
      rw [hsame.joining]
      apply h.joining
    · intro hsuccess
      dsimp only
      rw [hsame.accepted]
      apply h.saved hsuccess
  · rw [Bool.not_eq_true] at hloaded
    obtain ⟨-, -, path, generation, -, hrun⟩ := h.unloaded hloaded
    have hwriter : service.run.writer = .absent := by rw [hrun]
    rw [habsent hwriter]
    exact h

theorem Inv.requestStop (h : service.Inv) {success : Bool} {store : CheckpointStore}
    (hpc : service.pc = .stopStore success)
    (hstore : service.run.store.requestStop = .inr store) :
  Inv { service with run := { service.run with store, joining := true }, pc := .join success }
  := by
  have hloaded := h.loaded_of_busy (by simp [hpc])
  obtain ⟨hreachable, hcrashed, hahead⟩ := h.run hloaded
  have hjoining := h.not_joining (by simp [hpc])
  have hstep : service.run.Step .requestStop { service.run with store, joining := true } :=
    ⟨hcrashed, hjoining, store, hstore, rfl⟩
  have hsame : store = { service.run.store with stopping := true } := by
    rw [CheckpointStore.requestStop] at hstore
    split at hstore
    · cases hstore
    · cases hstore
      rfl
  constructor
  · intro hunloaded
    exact absurd (hloaded.symm.trans hunloaded) (by simp)
  · intro _
    refine ⟨hreachable.step (ℓ := .requestStop) trivial hstep, hcrashed, ?_⟩
    dsimp only
    rw [hsame]
    exact hahead
  · intro hstarted
    obtain ⟨-, hvalid, hrunning⟩ := h.started hstarted
    dsimp only
    rw [hsame]
    exact ⟨hloaded, hvalid, hrunning⟩
  · apply iff_of_true rfl ⟨success, rfl⟩
  · intro hsuccess
    apply h.saved
    rw [hpc]
    exact hsuccess

theorem Inv.stopped (h : service.Inv) {result : Bool}
    (hstep : service.Step (.stopped result) service') :
  service'.Inv
  := by
  obtain ⟨success, complete, hpc, -, -, rfl⟩ | ⟨success, hpc, hwriter, -, rfl⟩ := hstep
  · have hloaded := h.loaded_of_busy (by simp [hpc])
    constructor
    · intro hunloaded
      exact absurd (hloaded.symm.trans hunloaded) (by simp)
    · apply h.run
    · intro hstarted
      cases hstarted
    · constructor
      · intro hjoining
        rw [h.not_joining (by simp [hpc])] at hjoining
        cases hjoining
      · rintro ⟨success, ⟨⟩⟩
    · intro hsuccess
      cases hsuccess
  · have hloaded := h.loaded_of_busy (by simp [hpc])
    obtain ⟨hreachable, hcrashed, hahead⟩ := h.run hloaded
    have hjoining := h.joining.mpr ⟨success, hpc⟩
    constructor
    · intro hunloaded
      exact absurd (hloaded.symm.trans hunloaded) (by simp)
    · intro _
      exact ⟨hreachable.step (ℓ := .completeStop _) trivial
        ⟨hcrashed, hjoining, hwriter, rfl, rfl⟩, hcrashed, hahead⟩
    · intro hstarted
      cases hstarted
    · constructor
      · intro hjoining'
        cases hjoining'
      · rintro ⟨success', ⟨⟩⟩
    · intro hsuccess
      cases hsuccess

theorem Inv.step (h : service.Inv) {label : Label} (hstep : service.Step label service') :
  service'.Inv
  := by
  cases label with
  | load opens reads closes now =>
    obtain ⟨-, state, hload⟩ := hstep
    apply h.load hload
  | start created timerValid timerStarts =>
    obtain ⟨hpc, rfl⟩ := hstep
    apply h.start hpc created timerValid timerStarts
  | handleTimer =>
    obtain ⟨hpc, rfl⟩ := hstep
    apply h.saveNow hpc
  | saveNow =>
    obtain ⟨hpc, rfl⟩ := hstep
    apply h.saveNow hpc
  | stop timerStops =>
    obtain ⟨hpc, rfl⟩ := hstep
    apply h.stop hpc timerStops
  | flush =>
    obtain ⟨success, result, hpc, -, rfl⟩ := hstep
    apply h.wait
    · simp [hpc]
    · simp [hpc]
    · simp
    · rw [hpc]
      intro hsuccess
      apply (Bool.and_eq_true _ _ ▸ hsuccess).1
  | requestStop =>
    obtain ⟨success, store, hpc, hstore, rfl⟩ := hstep
    apply h.requestStop hpc hstore
  | stopped result => apply h.stopped hstep
  | business action =>
    obtain ⟨-, roomService, -, rfl⟩ := hstep
    exact { h with }
  | writer label =>
    obtain ⟨run, hlabel, hrun, rfl⟩ := hstep
    apply h.writer hlabel hrun

theorem inv_of_reachable (h : system.Reachable service) : service.Inv := by
  apply h.invariant
  · rintro _ ⟨roomService, path, disk, rfl⟩
    apply inv_new roomService path disk
  · intro _ _ _ hinv _ hstep
    apply hinv.step hstep

/-! ### Durable shutdown -/

/-- When `stop` succeeds, the store has confirmed that the file is the last checkpoint. -/
theorem Inv.holdsLast_of_stopped (h : service.Inv)
    (hstep : service.Step (.stopped true) service') :
  service'.run.HoldsLast ∧ service'.run.accepted = service.run.accepted
    ∧ service.pc.success = true
  := by
  obtain ⟨success, complete, hpc, hstop, hresult, rfl⟩ | ⟨success, hpc, hwriter, hresult, rfl⟩ :=
    hstep
  · obtain ⟨hreachable, hcrashed, -⟩ := h.run (h.loaded_of_busy (by simp [hpc]))
    obtain ⟨rfl, rfl⟩ := (Bool.and_eq_true _ _).mp hresult.symm
    refine ⟨?_, rfl, by rw [hpc]; rfl⟩
    have hstep : service.run.Step (.stop true) _ :=
      ⟨hcrashed, h.not_joining (by simp [hpc]), hstop, rfl⟩
    apply (StoreRun.inv_of_reachable hreachable).holdsLast_of_confirms hstep rfl
  · obtain ⟨hreachable, hcrashed, -⟩ := h.run (h.loaded_of_busy (by simp [hpc]))
    obtain ⟨rfl, hcomplete⟩ := (Bool.and_eq_true _ _).mp hresult.symm
    refine ⟨?_, rfl, by rw [hpc]; rfl⟩
    have hstep : service.run.Step (.completeStop true) _ :=
      ⟨hcrashed, h.joining.mpr ⟨true, hpc⟩, hwriter, hcomplete, rfl⟩
    apply (StoreRun.inv_of_reachable hreachable).holdsLast_of_confirms hstep rfl

/-- In every run of a service that was loaded the next checkpoint is newer than those given to
the store, so that a started service accepts each checkpoint of its rooms; a save that fails
changes nothing; and when `stop` succeeds, the file is read as the checkpoint of the rooms at
its call, which is newer than every earlier one. -/
theorem durable_of_reachable (h : system.Reachable service) :
  (service.loaded = true →
      service.run.store.lastSubmittedGeneration < service.nextGeneration)
    ∧ (service.pc = .ready → service.started = true → service.nextGeneration ≠ maxGeneration →
      ∀ checkpoint,
        service.roomService.makeCheckpoint true service.nextGeneration = some checkpoint →
        service.saveNow.1 = true
          ∧ service.saveNow.2.run.accepted = service.run.accepted ++ [checkpoint])
    ∧ (service.saveNow.1 = false → service.saveNow.2 = service)
    ∧ ∀ service', service.Step (.stopped true) service' →
      ∃ data checkpoint earlier, service'.run.disk.path = some data
        ∧ (∀ output, CheckpointCodec.decode data output = (.success, checkpoint))
        ∧ service.atStop.makeCheckpoint true checkpoint.generation = some checkpoint
        ∧ service'.run.accepted = earlier ++ [checkpoint]
        ∧ ∀ c ∈ earlier, c.generation < checkpoint.generation
  := by
  have hinv := inv_of_reachable h
  constructor
  · intro hloaded
    apply (hinv.run hloaded).2.2
  constructor
  · intro hpc hstarted hmax checkpoint hcheckpoint
    apply hinv.saveNow_succeeds hpc hstarted hmax hcheckpoint
  constructor
  · intro hfailed
    obtain heq | ⟨_, _, -, -, -, -, -, heq⟩ := service.saveNow_cases
    · rw [heq]
    · rw [heq] at hfailed
      cases hfailed
  · intro service' hstep
    obtain ⟨hholds, haccepted, hsuccess⟩ := hinv.holdsLast_of_stopped hstep
    obtain ⟨checkpoint, hlast, hcheckpoint⟩ := hinv.saved hsuccess
    rw [StoreRun.HoldsLast, haccepted, hlast] at hholds
    obtain ⟨data, hencode, hpath⟩ := hholds
    have hbusy : service.pc ≠ .ready := by
      intro hready
      rw [hready] at hsuccess
      cases hsuccess
    have hsorted := (StoreRun.inv_of_reachable (hinv.run (hinv.loaded_of_busy hbusy)).1).sorted
    obtain ⟨earlier, heq⟩ : ∃ earlier, service.run.accepted = earlier ++ [checkpoint] :=
      List.getLast?_eq_some_iff.mp hlast
    refine ⟨data, checkpoint, earlier, hpath, ?_, hcheckpoint, haccepted.trans heq, ?_⟩
    · intro output
      have hround := CheckpointCodec.encode_decode_round checkpoint [] output (by rw [hencode])
      rwa [hencode] at hround
    · intro c hc
      rw [heq] at hsorted
      apply (List.pairwise_append.mp hsorted).2.2 c hc checkpoint List.mem_cons_self

theorem commit_reachable (h : system.Reachable service) (hcrashed : service.run.crashed = false)
    {checkpoint : ServerCheckpoint} {data : Bytes}
    (hencode : CheckpointCodec.encode checkpoint [] = (.success, data))
    (hwriter : service.run.writer = .encode checkpoint) :
  system.Reachable { service with
    run := { service.run with writer := .report checkpoint true, disk := ⟨some data, none⟩ } }
  := by
  apply StoreRun.commit_induction (P := fun writer disk =>
    system.Reachable { service with run := { service.run with writer, disk } }) _ hencode
  · rw [← hwriter]
    exact h
  · intro writer disk writer' disk' heq hreachable
    apply hreachable.step (ℓ := .writer (.commit (.done data.length))) trivial
    refine ⟨_, trivial, ⟨hcrashed, rfl⟩, ?_⟩
    dsimp only
    rw [heq]

/-! ### A world that grows -/

/-- A started service, with the checkpoints that it has saved; the last has that generation. -/
def serving (roomService : RoomService) (accepted : List ServerCheckpoint) (disk : Disk)
    (generation : UInt64) : PersistenceService where
  roomService := roomService
  run :=
    { store := { CheckpointStore.new "world" with
        started := true
        lastSubmittedGeneration := generation
        lastCommittedGeneration := generation }
      disk := disk
      writer := .waiting
      joining := false
      crashed := false
      found := none
      accepted := accepted
      replaced := []
      committed := accepted
      failed := [] }
  nextGeneration := generation + 1
  loaded := true
  started := true
  pc := .ready
  atStop := .new 30000

/-- The service after it has submitted a checkpoint of its rooms. -/
def submitted (service : PersistenceService) (checkpoint : ServerCheckpoint) :
    PersistenceService :=
  { service with
    run := service.run.accept checkpoint { service.run.store with
      pendingCheckpoint := some checkpoint
      lastSubmittedGeneration := checkpoint.generation }
    nextGeneration := service.nextGeneration + 1 }

theorem saveNow_serving {roomService : RoomService} {accepted : List ServerCheckpoint} {disk : Disk}
    {generation : UInt64} {checkpoint : ServerCheckpoint}
    (hnext : generation < generation + 1) (hmax : generation + 1 ≠ maxGeneration)
    (hcheckpoint : roomService.makeCheckpoint true (generation + 1) = some checkpoint) :
  (serving roomService accepted disk generation).saveNow
    = (true, (serving roomService accepted disk generation).submitted checkpoint)
  := by
  obtain ⟨hgeneration, hnonzero⟩ := makeCheckpoint_generation hcheckpoint
  have hsubmit : (serving roomService accepted disk generation).run.store.submit checkpoint
      = (true, { (serving roomService accepted disk generation).run.store with
        pendingCheckpoint := some checkpoint
        lastSubmittedGeneration := checkpoint.generation }) := by
    rw [CheckpointStore.submit, if_neg]
    rw [hgeneration]
    simp [serving, CheckpointStore.new, hnonzero, UInt64.not_le.mpr hnext]
  have hready : ¬(!(serving roomService accepted disk generation).loaded
      || !(serving roomService accepted disk generation).started) = true := by simp [serving]
  have hmake : (serving roomService accepted disk generation).roomService.makeCheckpoint true
      (serving roomService accepted disk generation).nextGeneration = some checkpoint := hcheckpoint
  have hlast : (serving roomService accepted disk generation).nextGeneration ≠ maxGeneration :=
    hmax
  rw [PersistenceService.saveNow, if_neg hready, if_neg hlast, hmake]
  dsimp only
  rw [hsubmit]
  rfl

/-- What was submitted is committed. -/
theorem committed_reachable {service : PersistenceService} {checkpoint : ServerCheckpoint}
    {data : Bytes} (h : system.Reachable service) (hcrashed : service.run.crashed = false)
    (hwriter : service.run.writer = .waiting)
    (hpending : service.run.store.pendingCheckpoint = some checkpoint)
    (hencode : CheckpointCodec.encode checkpoint [] = (.success, data)) :
  system.Reachable { service with
    run := { service.run with
      store := service.run.store.take.settle checkpoint true
      disk := ⟨some data, none⟩
      writer := .waiting
      committed := service.run.committed ++ [checkpoint] } }
  := by
  have htake := h.step (ℓ := Label.writer (StoreRun.Label.take checkpoint)) trivial
    ⟨_, trivial, ⟨hcrashed, hwriter, hpending, rfl⟩, rfl⟩
  have hcommit := commit_reachable htake hcrashed hencode rfl
  exact hcommit.step (ℓ := Label.writer (StoreRun.Label.finish checkpoint true)) trivial
    ⟨_, trivial, ⟨hcrashed, rfl, rfl⟩, rfl⟩

/-- A player named `A` has joined a room for three. -/
def grown : RoomService :=
  (((RoomService.new 30000).addRoom true 1 3).2.run ⟨fun _ _ _ => true, fun _ _ => false⟩
    (.frame (some 7) MessageType.join.toU16 [0, 0, 0, 1, 0, 1, 65] (List.replicate 32 97) 0)).1

/-- A player named `B` has joined, too. -/
def regrown : RoomService :=
  (grown.run ⟨fun _ _ _ => true, fun _ _ => false⟩
    (.frame (some 8) MessageType.join.toU16 [0, 0, 0, 1, 0, 1, 66] (List.replicate 32 98) 0)).1

def grownCheckpoint : ServerCheckpoint where
  generation := 1
  rooms := [⟨1, 3, 2, .waiting, 0, [⟨1, [65]⟩], []⟩]
  sessions := [⟨List.replicate 32 97, 1, 1⟩]

def regrownCheckpoint : ServerCheckpoint where
  generation := 2
  rooms := [⟨1, 3, 3, .waiting, 0, [⟨1, [65]⟩, ⟨2, [66]⟩], []⟩]
  sessions := [⟨List.replicate 32 97, 1, 1⟩, ⟨List.replicate 32 98, 1, 2⟩]

/-- The service has found no file and is started; the first player joins and the world is saved,
then the second joins. -/
theorem regrown_reachable :
  ∃ disk, system.Reachable (serving regrown [grownCheckpoint] disk 1)
  := by
  have hnew : system.Reachable (new (.new 30000) "world" ⟨none, none⟩) := .initial ⟨_, _, _, rfl⟩
  have hloaded := hnew.step (ℓ := Label.load true [] true 0) trivial ⟨rfl, .notFound, rfl⟩
  have hstarted := hloaded.step (ℓ := Label.start true true true) trivial ⟨rfl, rfl⟩
  have hroom := hstarted.step (ℓ := Label.business (.addRoom 1 3)) trivial ⟨rfl, _, rfl, rfl⟩
  have hgrown : system.Reachable (serving grown [] ⟨none, none⟩ 0) :=
    hroom.step (ℓ := Label.business (.task _ _)) trivial ⟨rfl, grown, rfl, rfl⟩
  have hsave : (serving grown [] ⟨none, none⟩ 0).saveNow
      = (true, (serving grown [] ⟨none, none⟩ 0).submitted grownCheckpoint) :=
    saveNow_serving (by decide) (by decide) (by decide +kernel)
  have hsaved : system.Reachable ((serving grown [] ⟨none, none⟩ 0).submitted grownCheckpoint) := by
    apply hgrown.step (ℓ := Label.saveNow) trivial
    use rfl
    rw [hsave]
  have hencodes : (CheckpointCodec.encode grownCheckpoint []).1 = .success := by decide +kernel
  obtain ⟨data, hencode⟩ : ∃ data,
      CheckpointCodec.encode grownCheckpoint [] = (.success, data) := by
    use (CheckpointCodec.encode grownCheckpoint []).2
    rw [← hencodes]
  have hcommitted : system.Reachable (serving grown [grownCheckpoint] ⟨some data, none⟩ 1) :=
    committed_reachable hsaved rfl rfl rfl hencode
  use ⟨some data, none⟩
  exact hcommitted.step (ℓ := Label.business (.task _ _)) trivial ⟨rfl, regrown, rfl, rfl⟩

/-- The world is saved once more when the service stops, and the file has both players. -/
theorem regrown_durable :
  ∃ service service' : PersistenceService, service.Step (.stopped true) service'
    ∧ service'.run.accepted = [grownCheckpoint, regrownCheckpoint]
    ∧ ∃ data, service'.run.disk.path = some data
      ∧ ∀ output, CheckpointCodec.decode data output = (.success, regrownCheckpoint)
  := by
  obtain ⟨disk, hregrown⟩ := regrown_reachable
  have hsave : (serving regrown [grownCheckpoint] disk 1).saveNow
      = (true, (serving regrown [grownCheckpoint] disk 1).submitted regrownCheckpoint) :=
    saveNow_serving (by decide) (by decide) (by decide +kernel)
  have hstop : system.Reachable
      { (serving regrown [grownCheckpoint] disk 1).submitted regrownCheckpoint with
        pc := .flush true, atStop := regrown } := by
    apply hregrown.step (ℓ := Label.stop true) trivial
    use rfl
    rw [PersistenceService.stop, hsave]
    rfl
  have hencodes : (CheckpointCodec.encode regrownCheckpoint []).1 = .success := by decide +kernel
  obtain ⟨data, hencode⟩ : ∃ data,
      CheckpointCodec.encode regrownCheckpoint [] = (.success, data) := by
    use (CheckpointCodec.encode regrownCheckpoint []).2
    rw [← hencodes]
  have hcommit := committed_reachable hstop rfl rfl rfl hencode
  have hflush := hcommit.step (ℓ := Label.flush) trivial ⟨true, true, rfl, rfl, rfl⟩
  have hrequest := hflush.step (ℓ := Label.requestStop) trivial ⟨true, _, rfl, rfl, rfl⟩
  have hexit := hrequest.step (ℓ := Label.writer StoreRun.Label.exit) trivial
    ⟨_, trivial, ⟨rfl, rfl, rfl, rfl, rfl⟩, rfl⟩
  obtain ⟨service, service', hreachable, hstopped, hsaved⟩ : ∃ service service',
      system.Reachable service ∧ service.Step (.stopped true) service'
        ∧ service'.run.accepted = [grownCheckpoint] ++ [regrownCheckpoint] :=
    ⟨_, _, hexit, .inr ⟨true, rfl, rfl, rfl, rfl⟩, rfl⟩
  obtain ⟨data, checkpoint, earlier, hpath, hdecode, -, haccepted, -⟩ :=
    (durable_of_reachable hreachable).2.2.2 service' hstopped
  have hlast := List.append_inj_right' (haccepted.symm.trans hsaved) rfl
  rw [List.singleton_inj] at hlast
  rw [hlast] at hdecode
  exact ⟨service, service', hstopped, hsaved, data, hpath, hdecode⟩

end PersistenceService

end RoomServer
