import RoomServer.Main.ServerProcess

/-!
# The lifetimes of the server

Processes follow each other on one path, and each may be killed at any moment.  The file is never
lost: the next process restores what was saved last, and never anything older than before.  A
process that ends with the exit code 0 leaves the rooms as they were at its end.
-/

namespace RoomServer

namespace ServerProcess

variable {process process' : ServerProcess}

/-! ### The invariant -/

/-- The file is the checkpoint of the rooms as they are. -/
def HoldsRooms (service : PersistenceService) : Prop :=
  ∃ checkpoint, Encodes checkpoint service.run.disk.path
    ∧ service.roomService.makeCheckpoint true checkpoint.generation = some checkpoint

/-- Where the persistence service is when `main` is at a place. -/
def Placed (service : PersistenceService) : Pc → Prop
  | .load =>
    service = .new (.new reconnectTimeout) checkpointPath service.run.disk
  | .setUp | .startPersistence =>
    service.pc = .ready ∧ service.loaded = true ∧ service.started = false
  | .undoStart | .rollback => service.pc ≠ .ready
  | .startSignal | .loop => service.pc = .ready ∧ service.started = true
  | .stopPersistence _ =>
    service.pc ≠ .ready ∧ service.started = true ∧ service.roomService = service.atStop
  | .stopSignal success =>
    service.pc = .ready ∧ (success = true → service.run.writer = .absent ∧ HoldsRooms service)
  | .exited code =>
    service.pc = .ready ∧ (code = 0 → service.run.writer = .absent ∧ HoldsRooms service)

/-- The persistence service is where `main` expects it; its rooms can be saved, as those that
were; and the file, as it was found and as far as it was written, holds such rooms. -/
structure Inv (process : ServerProcess) : Prop where
  service : process.service.Inv
  placed : Placed process.service process.pc
  saveable : process.service.roomService.Saveable
  saved : ∀ s ∈ process.saved, s.Saveable
  found : Recoverable process.saved process.service.run.found
  accepted : ∀ c ∈ process.service.run.accepted, SavedIn process.saved c

/-- The next process can go on from the file. -/
theorem Inv.recoverable (h : process.Inv) :
  Recoverable process.saved process.service.run.disk.path
  := by
  by_cases hloaded : process.service.loaded = true
  · obtain ⟨hreachable, -⟩ := h.service.run hloaded
    obtain hfound | ⟨c, hc, hencodes⟩ := (StoreRun.inv_of_reachable hreachable).path
    · rw [hfound]
      exact h.found
    · exact .inr ⟨c, hencodes, h.accepted c hc⟩
  · rw [Bool.not_eq_true] at hloaded
    obtain ⟨-, -, path, generation, -, hrun⟩ := h.service.unloaded hloaded
    have hfound : process.service.run.found = process.service.run.disk.path := by rw [hrun]
    rw [← hfound]
    exact h.found

theorem inv_boot {disk : Disk} {saved : List RoomService} (hsaved : ∀ s ∈ saved, s.Saveable)
    (hdisk : Recoverable saved disk.path) :
  (boot disk saved).Inv
  where
  service := PersistenceService.inv_new _ _ _
  placed := rfl
  saveable := RoomService.new_saveable _
  saved := hsaved
  found := hdisk
  accepted := by
    intro c hc
    cases hc

/-- Only the files and the rooms may change. -/
theorem Inv.keep (h : process.Inv) {service : PersistenceService} {pc : Pc}
    (hservice : service.Inv) (hplaced : Placed service pc)
    (hsaveable : service.roomService.Saveable)
    (hfound : service.run.found = process.service.run.found)
    (haccepted : service.run.accepted = process.service.run.accepted) :
  Inv { process with service, pc }
  where
  service := hservice
  placed := hplaced
  saveable := hsaveable
  saved := h.saved
  found := hfound ▸ h.found
  accepted := haccepted ▸ h.accepted

/-! ### Loading -/

/-- A load that succeeds makes the service ready to start. -/
theorem load_ready {service service' : PersistenceService} {opens closes : Bool}
    {reads : List Outcome} {now : Int} {state : PersistenceService.Loadstates}
    (hpc : service.pc = .ready) (hstarted : service.started = false)
    (h : service.load opens reads closes now = some (state, service')) :
  service'.pc = .ready ∧ service'.started = false
    ∧ service'.run.found = service.run.found ∧ service'.run.accepted = service.run.accepted
    ∧ service'.run.disk = service.run.disk
    ∧ (state = .restored ∨ state = .notFound → service'.loaded = true)
  := by
  rw [PersistenceService.load] at h
  split at h
  · cases h
    exact ⟨hpc, hstarted, rfl, rfl, rfl, by simp⟩
  split at h
  · cases h
  · cases h
    exact ⟨hpc, hstarted, rfl, rfl, rfl, fun _ => rfl⟩
  · cases h
    exact ⟨hpc, hstarted, rfl, rfl, rfl, by simp⟩
  · cases h
    exact ⟨hpc, hstarted, rfl, rfl, rfl, by simp⟩
  · cases h
    exact ⟨hpc, hstarted, rfl, rfl, rfl, by simp⟩
  · dsimp only at h
    split at h
    · cases h
      exact ⟨hpc, hstarted, rfl, rfl, rfl, by simp⟩
    split at h
    · cases h
      exact ⟨hpc, hstarted, rfl, rfl, rfl, fun _ => rfl⟩
    · cases h
      exact ⟨hpc, hstarted, rfl, rfl, rfl, by simp⟩

/-- The default room is added to a service without rooms. -/
theorem addRoom_default {roomService : RoomService}
    (h : roomService = .new reconnectTimeout) :
  (roomService.addRoom true defaultRoomId defaultRoomCapacity).1 = true
  := by
  rw [h]
  rfl

theorem Inv.load (h : process.Inv) {opens closes : Bool} {reads : List Outcome} {now : Int}
    (hstep : process.Step (.load opens reads closes now) process') :
  process'.Inv
  := by
  obtain ⟨hpc, state, service, hload, rfl⟩ := hstep
  have hplaced := h.placed
  rw [hpc] at hplaced
  have hready : process.service.pc = .ready ∧ process.service.started = false := by
    rw [show process.service = _ from hplaced]
    exact ⟨rfl, rfl⟩
  obtain ⟨hpc', hstarted', hfound, haccepted, -, hloaded⟩ := load_ready hready.1 hready.2 hload
  have hservice := h.service.load hload
  rw [show process.service = _ from hplaced] at hload
  obtain ⟨rfl, -, hrooms⟩ | ⟨rfl, -, hrooms⟩ | ⟨rfl, hsaveable, -⟩ :=
    PersistenceService.load_of_recoverable h.saved (by decide) h.recoverable hload
  · have hplaced' : Placed service (.exited 1) := ⟨hpc', by simp⟩
    apply h.keep hservice hplaced' _ hfound haccepted
    rw [hrooms]
    apply RoomService.new_saveable
  · obtain ⟨roomService, hadded⟩ : ∃ roomService,
        service.roomService.addRoom true defaultRoomId defaultRoomCapacity
          = (true, roomService) := ⟨_, Prod.ext (addRoom_default hrooms) rfl⟩
    have hservice' : PersistenceService.Inv { service with roomService } := { hservice with }
    have hplaced' : Placed { service with roomService } .setUp :=
      ⟨hpc', hloaded (.inr rfl), hstarted'⟩
    have hsaveable : roomService.Saveable := by
      rw [hrooms] at hadded
      rw [show roomService = _ from (congrArg Prod.snd hadded).symm]
      apply (RoomService.new_saveable _).addRoom
    rw [loaded, hadded]
    apply h.keep hservice' hplaced' hsaveable hfound haccepted
  · have hplaced' : Placed service .setUp := ⟨hpc', hloaded (.inl rfl), hstarted'⟩
    apply h.keep hservice hplaced' hsaveable hfound haccepted

/-! ### Saving -/

theorem subset_recorded (process : ServerProcess) :
  process.saved ⊆ process.recorded
  := by
  rw [recorded]
  split
  · apply List.subset_append_left
  · apply List.Subset.refl

/-- A save leaves the rooms alone, and what it submits is recorded. -/
theorem Inv.saveNow (h : process.Inv) :
  (process.service.saveNow.2.run.found = process.service.run.found
      ∧ process.service.saveNow.2.roomService = process.service.roomService
      ∧ process.service.saveNow.2.pc = process.service.pc
      ∧ process.service.saveNow.2.started = process.service.started)
    ∧ (∀ s ∈ process.recorded, s.Saveable)
    ∧ ∀ c ∈ process.service.saveNow.2.run.accepted, SavedIn process.recorded c
  := by
  rw [recorded]
  obtain heq | ⟨temp, store, -, -, hmax, htemp, -, heq⟩ := process.service.saveNow_cases
  · rw [heq]
    exact ⟨⟨rfl, rfl, rfl, rfl⟩, h.saved, h.accepted⟩
  · rw [heq]
    refine ⟨⟨rfl, rfl, rfl, rfl⟩, ?_, ?_⟩
    · intro s hs
      obtain hs | hs := List.mem_append.mp hs
      · apply h.saved s hs
      · rw [List.mem_singleton.mp hs]
        exact h.saveable
    · intro c hc
      obtain hc | hc := List.mem_append.mp hc
      · apply (h.accepted c hc).mono (List.subset_append_left _ _)
      · rw [List.mem_singleton.mp hc]
        obtain ⟨hgeneration, hzero⟩ := PersistenceService.makeCheckpoint_generation htemp
        rw [h.saveable.makeCheckpoint_eq hzero, Option.some.injEq] at htemp
        refine ⟨hgeneration ▸ hzero, hgeneration ▸ hmax, process.service.roomService, ?_, ?_⟩
        · apply List.mem_append_right _ List.mem_cons_self
        · rw [hgeneration, htemp]

theorem Inv.handleTimer (h : process.Inv) (hpc : process.pc = .loop) :
  process.handleTimer.Inv
  := by
  have hplaced := h.placed
  rw [hpc] at hplaced
  obtain ⟨⟨hfound, hrooms, hready, hstarted⟩, hsaved, haccepted⟩ := h.saveNow
  constructor
  · apply h.service.saveNow hplaced.1
  · dsimp only [ServerProcess.handleTimer]
    rw [hpc]
    exact ⟨hready.trans hplaced.1, hstarted.trans hplaced.2⟩
  · apply hrooms ▸ h.saveable
  · exact hsaved
  · apply hfound ▸ h.found.mono process.subset_recorded
  · exact haccepted

/-- The persistence service is stopped from where it is started. -/
theorem Inv.stopAt (h : process.Inv) (hready : process.service.pc = .ready)
    (hstarted : process.service.started = true) (timerStops : Bool) {pc : Pc}
    (hpc : ∀ service : PersistenceService, service.pc ≠ .ready → service.started = true →
      service.roomService = service.atStop → Placed service pc) :
  (process.stopAt timerStops pc).Inv
  := by
  obtain ⟨⟨hfound, hrooms, -, hstarted'⟩, hsaved, haccepted⟩ := h.saveNow
  have hstop : process.service.stop timerStops = { process.service.saveNow.2 with
      pc := .flush (timerStops && process.service.saveNow.1)
      atStop := process.service.roomService } := by
    rw [PersistenceService.stop, hstarted]
    rfl
  rw [ServerProcess.stopAt, if_pos hstarted]
  constructor
  · apply h.service.stop hready
  · rw [hstop]
    apply hpc
    · intro hpc'
      cases hpc'
    · apply hstarted'.trans hstarted
    · exact hrooms
  · rw [hstop]
    apply hrooms ▸ h.saveable
  · exact hsaved
  · rw [hstop]
    apply hfound ▸ h.found.mono process.subset_recorded
  · rw [hstop]
    exact haccepted

/-! ### Starting and stopping -/

/-- A start succeeds, does nothing, or goes on to undo itself. -/
theorem start_cases {service : PersistenceService} (created timerValid timerStarts : Bool)
    (hpc : service.pc = .ready) (hstarted : service.started = false) :
  ((service.start created timerValid timerStarts).roomService = service.roomService
      ∧ (service.start created timerValid timerStarts).run.found = service.run.found
      ∧ (service.start created timerValid timerStarts).run.accepted = service.run.accepted)
    ∧ ((service.start created timerValid timerStarts).started = true
        ∧ (service.start created timerValid timerStarts).pc = .ready
      ∨ (service.start created timerValid timerStarts).started = false
        ∧ ((service.start created timerValid timerStarts).pc = .ready
          ∨ (service.start created timerValid timerStarts).pc = .stopStore false))
  := by
  rw [PersistenceService.start]
  split
  · exact ⟨⟨rfl, rfl, rfl⟩, .inr ⟨hstarted, .inl hpc⟩⟩
  split
  · exact ⟨⟨rfl, rfl, rfl⟩, .inr ⟨hstarted, .inl hpc⟩⟩
  · dsimp only
    split
    · exact ⟨⟨rfl, rfl, rfl⟩, .inl ⟨rfl, hpc⟩⟩
    · exact ⟨⟨rfl, rfl, rfl⟩, .inr ⟨hstarted, .inr rfl⟩⟩

theorem Inv.startPersistence (h : process.Inv) (hpc : process.pc = .startPersistence)
    (created timerValid timerStarts : Bool) :
  (process.startPersistence created timerValid timerStarts).Inv
  := by
  have hplaced := h.placed
  rw [hpc] at hplaced
  obtain ⟨hready, -, hstarted⟩ := hplaced
  have hservice := h.service.start hready created timerValid timerStarts
  obtain ⟨⟨hrooms, hfound, haccepted⟩, hcases⟩ :=
    start_cases created timerValid timerStarts hready hstarted
  rw [ServerProcess.startPersistence]
  obtain ⟨hstarted', hpc'⟩ | ⟨hstarted', hpc' | hpc'⟩ := hcases
  · rw [hstarted']
    have hplaced' : Placed (process.service.start created timerValid timerStarts) .startSignal :=
      ⟨hpc', hstarted'⟩
    apply h.keep hservice hplaced' (hrooms ▸ h.saveable) hfound haccepted
  · rw [hstarted', hpc']
    have hplaced' : Placed (process.service.start created timerValid timerStarts) (.exited 1) :=
      ⟨hpc', by simp⟩
    apply h.keep hservice hplaced' (hrooms ▸ h.saveable) hfound haccepted
  · rw [hstarted', hpc']
    have hplaced' : Placed (process.service.start created timerValid timerStarts) .undoStart := by
      rw [Placed, hpc']
      simp
    apply h.keep hservice hplaced' (hrooms ▸ h.saveable) hfound haccepted

/-- While the base loop waits in `stop`, the rooms stay, and so does what was submitted. -/
theorem stopping_keeps {service service' : PersistenceService}
    {label : PersistenceService.Label}
    (hlabel : label = .flush ∨ label = .requestStop ∨ ∃ result, label = .stopped result)
    (hstep : service.Step label service') :
  service.pc ≠ .ready ∧ service'.roomService = service.roomService
    ∧ service'.run.found = service.run.found ∧ service'.run.accepted = service.run.accepted
    ∧ ((∃ result, label = .stopped result) ∧ service'.pc = .ready
      ∨ service'.pc ≠ .ready ∧ service'.started = service.started
        ∧ service'.atStop = service.atStop)
  := by
  obtain rfl | rfl | ⟨result, rfl⟩ := hlabel
  · obtain ⟨success, result, hpc, -, rfl⟩ := hstep
    refine ⟨by simp [hpc], rfl, rfl, rfl, .inr ⟨by simp, rfl, rfl⟩⟩
  · obtain ⟨success, store, hpc, -, rfl⟩ := hstep
    refine ⟨by simp [hpc], rfl, rfl, rfl, .inr ⟨by simp, rfl, rfl⟩⟩
  · obtain ⟨success, complete, hpc, -, -, rfl⟩ | ⟨success, hpc, -, -, rfl⟩ := hstep
    · exact ⟨by simp [hpc], rfl, rfl, rfl, .inl ⟨⟨result, rfl⟩, rfl⟩⟩
    · exact ⟨by simp [hpc], rfl, rfl, rfl, .inl ⟨⟨result, rfl⟩, rfl⟩⟩

/-- A step of the wait leaves `main` where it is. -/
theorem Inv.wait (h : process.Inv) {label : PersistenceService.Label}
    {service : PersistenceService} (hlabel : label = .flush ∨ label = .requestStop)
    (hstep : process.service.Step label service) :
  Inv { process with service }
  := by
  have hlabel' : label = .flush ∨ label = .requestStop ∨ ∃ result, label = .stopped result := by
    obtain hlabel | hlabel := hlabel
    · exact .inl hlabel
    · exact .inr (.inl hlabel)
  obtain ⟨hpc, hrooms, hfound, haccepted, ⟨⟨result, rfl⟩, -⟩ | ⟨hpc', hstarted, hatStop⟩⟩ :=
    stopping_keeps hlabel' hstep
  · obtain hlabel | hlabel := hlabel <;> cases hlabel
  have hplaced := h.placed
  have hplaced' : Placed service process.pc := by
    cases hat : process.pc with
    | load =>
      rw [hat] at hplaced
      rw [show process.service = _ from hplaced] at hpc
      exact absurd rfl hpc
    | setUp | startPersistence | startSignal | loop | stopSignal | exited =>
      rw [hat] at hplaced
      exact absurd hplaced.1 hpc
    | undoStart | rollback => exact hpc'
    | stopPersistence success =>
      rw [hat] at hplaced
      exact ⟨hpc', hstarted.trans hplaced.2.1, hrooms.trans (hplaced.2.2.trans hatStop.symm)⟩
  apply h.keep (h.service.step hstep) hplaced' (hrooms ▸ h.saveable) hfound haccepted

/-- When the service has stopped with success, the file is the checkpoint of the rooms. -/
theorem Inv.holdsRooms_of_stopped (h : process.Inv) {success : Bool}
    {service : PersistenceService} (hpc : process.pc = .stopPersistence success)
    (hstep : process.service.Step (.stopped true) service) :
  service.run.writer = .absent ∧ HoldsRooms service
  := by
  have hplaced := h.placed
  rw [hpc] at hplaced
  obtain ⟨-, hstarted, hrooms⟩ := hplaced
  obtain ⟨hholds, haccepted, hsuccess⟩ := h.service.holdsLast_of_stopped hstep
  obtain ⟨checkpoint, hlast, hcheckpoint⟩ := h.service.saved hsuccess
  have hrooms' := (stopping_keeps (.inr (.inr ⟨true, rfl⟩)) hstep).2.1
  constructor
  · obtain ⟨_, _, -, hstop, -, -⟩ | ⟨_, -, -, -, rfl⟩ := hstep
    · -- The store was started, so that its `stop` has to wait.
      rw [CheckpointStore.requestStop, (h.service.started hstarted).2.2] at hstop
      cases hstop
    · rfl
  · rw [StoreRun.HoldsLast, haccepted, hlast] at hholds
    refine ⟨checkpoint, hholds, ?_⟩
    rw [hrooms', hrooms]
    exact hcheckpoint

theorem Inv.stopped (h : process.Inv) {result : Bool} {service : PersistenceService}
    (hstep : process.service.Step (.stopped result) service) :
  Inv { process with service, pc := process.pc.afterStop result }
  := by
  obtain ⟨hpc, hrooms, hfound, haccepted, ⟨-, hpc'⟩ | ⟨hbusy, -⟩⟩ :=
    stopping_keeps (.inr (.inr ⟨result, rfl⟩)) hstep
  · have hplaced := h.placed
    have hplaced' : Placed service (process.pc.afterStop result) := by
      cases hat : process.pc with
      | load =>
        rw [hat] at hplaced
        rw [show process.service = _ from hplaced] at hpc
        exact absurd rfl hpc
      | setUp | startPersistence | startSignal | loop | stopSignal | exited =>
        rw [hat] at hplaced
        exact absurd hplaced.1 hpc
      | undoStart | rollback => exact ⟨hpc', by simp⟩
      | stopPersistence success =>
        use hpc'
        intro hsuccess
        rw [Bool.and_eq_true] at hsuccess
        rw [hsuccess.2] at hstep
        apply h.holdsRooms_of_stopped hat hstep
    apply h.keep (h.service.step hstep) hplaced' (hrooms ▸ h.saveable) hfound haccepted
  · obtain ⟨_, _, -, -, -, rfl⟩ | ⟨_, -, -, -, rfl⟩ := hstep <;> exact absurd rfl hbusy

/-! ### Runs -/

/-- The writer changes nothing but the files and its own state. -/
theorem Inv.writer (h : process.Inv) {label : StoreRun.Label} {service : PersistenceService}
    (hstep : process.service.Step (.writer label) service) :
  Inv { process with service }
  := by
  have hservice := h.service.step hstep
  obtain ⟨run, hlabel, hrun, rfl⟩ := hstep
  obtain ⟨hsame, habsent⟩ := PersistenceService.sameOwner_of_writer hlabel hrun
  by_cases hwriter : process.service.run.writer = .absent
  · rw [habsent hwriter]
    exact h
  have hplaced := h.placed
  have hplaced' : Placed { process.service with run } process.pc := by
    cases hat : process.pc with
    | load =>
      rw [hat] at hplaced
      rw [show process.service = _ from hplaced] at hwriter
      exact absurd rfl hwriter
    | stopSignal success =>
      rw [hat] at hplaced
      exact ⟨hplaced.1, fun hsuccess => absurd (hplaced.2 hsuccess).1 hwriter⟩
    | exited code =>
      rw [hat] at hplaced
      exact ⟨hplaced.1, fun hcode => absurd (hplaced.2 hcode).1 hwriter⟩
    | _ =>
      rw [hat] at hplaced
      exact hplaced
  apply h.keep hservice hplaced' h.saveable (StoreRun.found_of_step hrun) hsame.accepted

theorem Inv.setUp (h : process.Inv) {success : Bool}
    (hstep : process.Step (.setUp success) process') :
  process'.Inv
  := by
  obtain ⟨hpc, rfl⟩ := hstep
  have hplaced := h.placed
  rw [hpc] at hplaced
  have hplaced' : Placed process.service (if success then .startPersistence else .exited 1) := by
    cases success with
    | true => exact hplaced
    | false => exact ⟨hplaced.1, by simp⟩
  apply h.keep h.service hplaced' h.saveable rfl rfl

theorem Inv.startSignal (h : process.Inv) {success timerStops : Bool}
    (hstep : process.Step (.startSignal success timerStops) process') :
  process'.Inv
  := by
  obtain ⟨hpc, rfl⟩ := hstep
  have hplaced := h.placed
  rw [hpc] at hplaced
  cases success with
  | true =>
    have hplaced' : Placed process.service .loop := hplaced
    apply h.keep h.service hplaced' h.saveable rfl rfl
  | false =>
    apply h.stopAt hplaced.1 hplaced.2
    intro service hpc' _ _
    exact hpc'

theorem Inv.stopSignal (h : process.Inv) {success : Bool}
    (hstep : process.Step (.stopSignal success) process') :
  process'.Inv
  := by
  obtain ⟨succeeded, hpc, rfl⟩ := hstep
  have hplaced := h.placed
  rw [hpc] at hplaced
  have hplaced' : Placed process.service (.exited (if succeeded && success then 0 else 1)) := by
    use hplaced.1
    intro hcode
    apply hplaced.2
    by_contra hfailed
    rw [Bool.not_eq_true] at hfailed
    rw [hfailed] at hcode
    cases hcode
  apply h.keep h.service hplaced' h.saveable rfl rfl

theorem step_inv (h : process.Inv) {label : Label} (hstep : process.Step label process') :
  process'.Inv
  := by
  have hplaced := h.placed
  cases label with
  | boot =>
    rw [show process' = _ from hstep]
    apply inv_boot h.saved h.recoverable
  | load opens reads closes now => apply h.load hstep
  | setUp success => apply h.setUp hstep
  | start created timerValid timerStarts =>
    obtain ⟨hpc, rfl⟩ := hstep
    apply h.startPersistence hpc
  | startSignal success timerStops => apply h.startSignal hstep
  | task task answers =>
    obtain ⟨hpc, hgenerated, rfl⟩ := hstep
    rw [hpc] at hplaced
    obtain ⟨L, hL⟩ := h.saveable.represents
    have hsaveable :=
      (RoomService.run_transacts hL answers task).saveable hgenerated.fits h.saveable
    have hservice : PersistenceService.Inv { process.service with
        roomService := (process.service.roomService.run answers task).1 } := { h.service with }
    apply h.keep hservice (hpc ▸ hplaced) hsaveable rfl rfl
  | reorder =>
    obtain ⟨hpc, roomService, hreordered, rfl⟩ := hstep
    rw [hpc] at hplaced
    have hservice : PersistenceService.Inv { process.service with roomService } :=
      { h.service with }
    apply h.keep hservice (hpc ▸ hplaced) (h.saveable.reorder hreordered) rfl rfl
  | handleTimer =>
    obtain ⟨hpc, rfl⟩ := hstep
    apply h.handleTimer hpc
  | quit loopSucceeded timersStopped timerStops =>
    obtain ⟨hpc, rfl⟩ := hstep
    rw [hpc] at hplaced
    apply h.stopAt hplaced.1 hplaced.2
    intro service hpc' hstarted hrooms
    exact ⟨hpc', hstarted, hrooms⟩
  | flush =>
    obtain ⟨service, hservice, rfl⟩ := hstep
    apply h.wait (.inl rfl) hservice
  | requestStop =>
    obtain ⟨service, hservice, rfl⟩ := hstep
    apply h.wait (.inr rfl) hservice
  | stopped result =>
    obtain ⟨service, hservice, rfl⟩ := hstep
    apply h.stopped hservice
  | stopSignal success => apply h.stopSignal hstep
  | writer label =>
    obtain ⟨service, hservice, rfl⟩ := hstep
    apply h.writer hservice

theorem inv_of_reachable (h : system.Reachable process) : process.Inv := by
  apply h.invariant
  · rintro _ (⟨temporary, rfl⟩ | ⟨generator, hgenerator, rfl⟩)
    · apply inv_boot
      · intro s hs
        cases hs
      · exact .inl rfl
    · apply inv_boot
      · intro s hs
        rw [List.mem_singleton.mp hs]
        apply CheckpointGenerator.generatedService_saveable
      · apply (CheckpointGenerator.inv_of_reachable hgenerator).recoverable
  · intro _ _ _ hinv _ hstep
    apply step_inv hinv hstep

/-- The first process after it has found no file, in its base loop. -/
def looping : ServerProcess where
  service := {
    PersistenceService.new ((RoomService.new reconnectTimeout).addRoom true defaultRoomId
      defaultRoomCapacity).2 checkpointPath ⟨none, none⟩ with
    run := { StoreRun.unstarted with
      store := { CheckpointStore.new checkpointPath with started := true }, writer := .waiting }
    loaded := true
    started := true
    atStop := .new reconnectTimeout }
  pc := .loop
  saved := []

theorem looping_reachable :
  system.Reachable looping
  := by
  have hboot : system.Reachable (boot ⟨none, none⟩ []) := .initial (.inl ⟨none, rfl⟩)
  have hload := hboot.step (ℓ := Label.load true [] true 0) trivial ⟨rfl, .notFound, _, rfl, rfl⟩
  have hsetUp := hload.step (ℓ := Label.setUp true) trivial ⟨rfl, rfl⟩
  have hstart := hsetUp.step (ℓ := Label.start true true true) trivial ⟨rfl, rfl⟩
  exact hstart.step (ℓ := Label.startSignal true true) trivial ⟨rfl, rfl⟩

/-! ### The next process -/

/-- Whenever a process ends or is killed, the next one loads the file: it restores the rooms
whose checkpoint the file holds, which were saved in this process or an earlier one; it finds no
file when none was there; and it fails in no other way than through a system call.  It does
return when its reads take the whole file. -/
theorem recovers_of_reachable (h : system.Reachable process) (opens : Bool)
    (reads : List Outcome) (closes : Bool) (now : Int) :
  (∀ state service,
      (boot process.service.run.disk process.saved).service.load opens reads closes now
        = some (state, service) →
      state = .ioError ∧ Faulty opens reads closes
        ∨ state = .notFound ∧ process.service.run.disk.path = none
        ∨ state = .restored ∧ ∃ saved ∈ process.saved, ∃ checkpoint,
          Encodes checkpoint process.service.run.disk.path
            ∧ saved.makeCheckpoint true checkpoint.generation = some checkpoint
            ∧ service.roomService.makeCheckpoint true checkpoint.generation = some checkpoint)
    ∧ ((∀ content, process.service.run.disk.path = some content →
        content.length < (reads.filter fun outcome => outcome matches .done _).length) →
      ((boot process.service.run.disk process.saved).service.load opens reads closes now).isSome)
  := by
  have hinv := inv_of_reachable h
  constructor
  · intro state service hload
    obtain ⟨hstate, hfaulty, -⟩ | ⟨hstate, hnone, -⟩ |
        ⟨hstate, hsaveable, checkpoint, saved, hencodes, hsaved, heq, hdata⟩ :=
      PersistenceService.load_of_recoverable hinv.saved (by decide) hinv.recoverable hload
    · exact .inl ⟨hstate, hfaulty⟩
    · exact .inr (.inl ⟨hstate, hnone⟩)
    · have hzero := hencodes.generation_ne_zero
      refine .inr (.inr ⟨hstate, saved, hsaved, checkpoint, hencodes, ?_, ?_⟩)
      · rw [(hinv.saved saved hsaved).makeCheckpoint_eq hzero, ← heq]
      · rw [hsaveable.makeCheckpoint_eq hzero, hdata, ← heq]
  · apply PersistenceService.load_isSome now

/-- A process that was killed before its first save finds no file. -/
theorem looping_recovers :
  ∃ service, (boot looping.service.run.disk looping.saved).service.load true [] true 0
    = some (.notFound, service)
  := by
  obtain ⟨hcases, hreturns⟩ := recovers_of_reachable looping_reachable true [] true 0
  obtain ⟨⟨state, service⟩, hload⟩ := Option.isSome_iff_exists.mp (hreturns (by
    intro content hcontent
    cases hcontent))
  use service
  obtain ⟨-, hopens | hmem | hcloses⟩ | ⟨rfl, -⟩ | ⟨-, _, hsaved, -⟩ := hcases state service hload
  · cases hopens
  · cases hmem
  · cases hcloses
  · exact hload
  · cases hsaved

/-! ### Nothing gets older -/

/-- A save is handed to the writer; the files stay. -/
theorem saveNow_disk (service : PersistenceService) :
  service.saveNow.2.run.disk = service.run.disk
  := by
  obtain heq | ⟨_, _, -, -, -, -, -, heq⟩ := service.saveNow_cases <;> rw [heq]
  rfl

theorem stopAt_disk (process : ServerProcess) (timerStops : Bool) (pc : Pc) :
  (process.stopAt timerStops pc).service.run.disk = process.service.run.disk
  := by
  rw [ServerProcess.stopAt]
  split
  · next hstarted =>
    dsimp only
    rw [PersistenceService.stop, if_neg (by simp [hstarted])]
    apply saveNow_disk
  · rfl

theorem startPersistence_disk (process : ServerProcess) (created timerValid timerStarts : Bool) :
  (process.startPersistence created timerValid timerStarts).service.run.disk
    = process.service.run.disk
  := by
  have hdisk : (process.service.start created timerValid timerStarts).run.disk
      = process.service.run.disk := by
    rw [PersistenceService.start]
    split
    · rfl
    split
    · rfl
    · dsimp only
      split <;> rfl
  rw [ServerProcess.startPersistence]
  split <;> exact hdisk

theorem Inv.load_disk (h : process.Inv) {opens closes : Bool} {reads : List Outcome} {now : Int}
    (hstep : process.Step (.load opens reads closes now) process') :
  process'.service.run.disk = process.service.run.disk
  := by
  obtain ⟨hpc, state, service, hload, rfl⟩ := hstep
  have hplaced := h.placed
  rw [hpc] at hplaced
  have hready : process.service.pc = .ready ∧ process.service.started = false := by
    rw [show process.service = _ from hplaced]
    exact ⟨rfl, rfl⟩
  have hdisk := (load_ready hready.1 hready.2 hload).2.2.2.2.1
  cases state with
  | notFound =>
    rw [loaded]
    split <;> exact hdisk
  | _ => exact hdisk

/-- Only the writer touches the files. -/
theorem step_disk (h : process.Inv) {label : Label} (hstep : process.Step label process') :
  (∃ l, label = .writer l) ∨ process'.service.run.disk = process.service.run.disk
  := by
  cases label with
  | boot =>
    rw [show process' = _ from hstep]
    exact .inr rfl
  | load opens reads closes now => exact .inr (h.load_disk hstep)
  | setUp success =>
    obtain ⟨-, rfl⟩ := hstep
    exact .inr rfl
  | start created timerValid timerStarts =>
    obtain ⟨-, rfl⟩ := hstep
    exact .inr (startPersistence_disk process created timerValid timerStarts)
  | startSignal success timerStops =>
    obtain ⟨-, rfl⟩ := hstep
    cases success with
    | true => exact .inr rfl
    | false => exact .inr (stopAt_disk process timerStops .rollback)
  | task task answers =>
    obtain ⟨-, -, rfl⟩ := hstep
    exact .inr rfl
  | reorder =>
    obtain ⟨-, roomService, -, rfl⟩ := hstep
    exact .inr rfl
  | handleTimer =>
    obtain ⟨-, rfl⟩ := hstep
    exact .inr (saveNow_disk process.service)
  | quit loopSucceeded timersStopped timerStops =>
    obtain ⟨-, rfl⟩ := hstep
    exact .inr (stopAt_disk process timerStops _)
  | flush =>
    obtain ⟨_, ⟨_, _, -, -, rfl⟩, rfl⟩ := hstep
    exact .inr rfl
  | requestStop =>
    obtain ⟨_, ⟨_, _, -, -, rfl⟩, rfl⟩ := hstep
    exact .inr rfl
  | stopped result =>
    obtain ⟨_, ⟨_, _, -, -, -, rfl⟩ | ⟨_, -, -, -, rfl⟩, rfl⟩ := hstep <;> exact .inr rfl
  | stopSignal success =>
    obtain ⟨_, -, rfl⟩ := hstep
    exact .inr rfl
  | writer label => exact .inl ⟨label, rfl⟩

/-- No step makes the file older, nor does the end of the process. -/
theorem step_grows (h : process.Inv) {label : Label} (hstep : process.Step label process') :
  fileGeneration process.service.run.disk.path ≤ fileGeneration process'.service.run.disk.path
  := by
  obtain ⟨label, rfl⟩ | hdisk := step_disk h hstep
  · obtain ⟨_, ⟨run, hlabel, hrun, rfl⟩, rfl⟩ := hstep
    by_cases hloaded : process.service.loaded = true
    · obtain ⟨hreachable, -⟩ := h.service.run hloaded
      apply (StoreRun.step_grows (StoreRun.inv_of_reachable hreachable) hrun).path
    · rw [Bool.not_eq_true] at hloaded
      obtain ⟨-, -, path, generation, -, hunstarted⟩ := h.service.unloaded hloaded
      have hwriter : process.service.run.writer = .absent := by rw [hunstarted]
      rw [(PersistenceService.sameOwner_of_writer hlabel hrun).2 hwriter]
      apply UInt64.le_refl _
  · rw [hdisk]
    apply UInt64.le_refl _

/-- Over any number of lifetimes the file never gets older. -/
theorem generations_grow (h : system.Reachable process) (hleads : system.Leads process process') :
  fileGeneration process.service.run.disk.path ≤ fileGeneration process'.service.run.disk.path
  := by
  suffices process'.Inv
      ∧ fileGeneration process.service.run.disk.path
        ≤ fileGeneration process'.service.run.disk.path from this.2
  apply hleads.preserves (I := fun later => later.Inv
    ∧ fileGeneration process.service.run.disk.path
      ≤ fileGeneration later.service.run.disk.path)
  · intro later label later' ⟨hinv, hle⟩ hstep
    exact ⟨step_inv hinv hstep, UInt64.le_trans hle (step_grows hinv hstep)⟩
  · exact ⟨inv_of_reachable h, UInt64.le_refl _⟩

theorem looping_grows :
  fileGeneration looping.service.run.disk.path
    ≤ fileGeneration (boot looping.service.run.disk looping.saved).service.run.disk.path
  := generations_grow looping_reachable (.step (ℓ := Label.boot) .refl rfl)

/-! ### The base loop -/

/-- In the base loop every save is accepted, until the generations run out: the rooms have a
checkpoint, which the codec writes unless it is too large. -/
theorem saves_of_reachable (h : system.Reachable process) (hpc : process.pc = .loop)
    (hmax : process.service.nextGeneration ≠ PersistenceService.maxGeneration) :
  ∃ checkpoint,
    process.service.roomService.makeCheckpoint true process.service.nextGeneration
        = some checkpoint
      ∧ process.handleTimer.service.run.accepted = process.service.run.accepted ++ [checkpoint]
      ∧ process.handleTimer.saved = process.saved ++ [process.service.roomService]
      ∧ ((CheckpointCodec.encode checkpoint []).1 = .success
        ∨ (CheckpointCodec.encode checkpoint []).1 = .tooLarge)
  := by
  have hinv := inv_of_reachable h
  have hplaced := hinv.placed
  rw [hpc] at hplaced
  obtain ⟨hready, hstarted⟩ := hplaced
  obtain ⟨-, -, hahead⟩ := hinv.service.run (hinv.service.started hstarted).1
  have hzero : process.service.nextGeneration ≠ 0 := by
    intro hzero
    rw [hzero, UInt64.lt_iff_toNat_lt] at hahead
    simp at hahead
  have hcheckpoint := hinv.saveable.makeCheckpoint_eq hzero
  obtain ⟨haccepted, hrun⟩ := hinv.service.saveNow_succeeds hready hstarted hmax hcheckpoint
  refine ⟨_, hcheckpoint, hrun, ?_, ?_⟩
  · rw [handleTimer, recorded, if_pos haccepted]
  · rw [CheckpointCodec.encode_of_valid hzero (hinv.saveable.validCheckpointKeys _)]
    split
    · exact .inl rfl
    · exact .inr rfl

theorem looping_saves :
  ∃ checkpoint, looping.handleTimer.service.run.accepted = [checkpoint]
    ∧ looping.handleTimer.saved = [looping.service.roomService]
  := by
  obtain ⟨checkpoint, -, haccepted, hsaved, -⟩ :=
    saves_of_reachable looping_reachable rfl (by decide)
  exact ⟨checkpoint, haccepted, hsaved⟩

/-! ### The exit code -/

/-- A process that ends with the exit code 0 has saved the rooms as they were in the end: the
next process restores a server with the same checkpoint, unless a system call fails. -/
theorem exit_of_reachable (h : system.Reachable process) (hpc : process.pc = .exited 0) :
  ∃ checkpoint, Encodes checkpoint process.service.run.disk.path
    ∧ process.service.roomService.makeCheckpoint true checkpoint.generation = some checkpoint
    ∧ ∀ opens reads closes now state service,
      (boot process.service.run.disk process.saved).service.load opens reads closes now
        = some (state, service) →
      state = .ioError ∧ Faulty opens reads closes
        ∨ state = .restored
          ∧ service.roomService.makeCheckpoint true checkpoint.generation = some checkpoint
  := by
  have hplaced := (inv_of_reachable h).placed
  rw [hpc] at hplaced
  obtain ⟨checkpoint, hencodes, hrooms⟩ := (hplaced.2 rfl).2
  refine ⟨checkpoint, hencodes, hrooms, ?_⟩
  intro opens reads closes now state service hload
  obtain ⟨data, -, hdata⟩ := id hencodes
  have hinv := inv_of_reachable h
  obtain ⟨hstate, hfaulty, -⟩ | ⟨-, hnone, -⟩ |
      ⟨hstate, hsaveable, checkpoint', saved, hencodes', -, heq, hsame⟩ :=
    PersistenceService.load_of_recoverable hinv.saved (by decide) hinv.recoverable hload
  · exact .inl ⟨hstate, hfaulty⟩
  · rw [hdata] at hnone
    cases hnone
  · rw [hdata] at hencodes hencodes'
    have hdecode := (hencodes.decode ⟨0, [], []⟩).symm.trans (hencodes'.decode ⟨0, [], []⟩)
    rw [Prod.mk.injEq] at hdecode
    obtain ⟨-, rfl⟩ := hdecode
    refine .inr ⟨hstate, ?_⟩
    rw [hsaveable.makeCheckpoint_eq hencodes.generation_ne_zero, hsame, ← heq]

theorem commit_reachable (h : system.Reachable process)
    (hcrashed : process.service.run.crashed = false) {checkpoint : ServerCheckpoint} {data : Bytes}
    (hencode : CheckpointCodec.encode checkpoint [] = (.success, data))
    (hwriter : process.service.run.writer = .encode checkpoint) :
  system.Reachable { process with
    service := { process.service with
      run := { process.service.run with
        writer := .report checkpoint true, disk := ⟨some data, none⟩ } } }
  := by
  apply StoreRun.commit_induction (P := fun writer disk =>
    system.Reachable { process with
      service := { process.service with
        run := { process.service.run with writer, disk } } }) _ hencode
  · rw [← hwriter]
    exact h
  · intro writer disk writer' disk' heq hreachable
    apply hreachable.step (ℓ := .writer (.commit (.done data.length))) trivial
    refine ⟨_, ⟨_, trivial, ⟨hcrashed, rfl⟩, rfl⟩, ?_⟩
    dsimp only
    rw [heq]

/-- The first process after the call of `stop` of its persistence service. -/
def stopping : ServerProcess where
  service := { looping.service with
    run := looping.service.run.accept (CheckpointGenerator.generatedCheckpoint 1 4)
      { looping.service.run.store with
        pendingCheckpoint := some (CheckpointGenerator.generatedCheckpoint 1 4)
        lastSubmittedGeneration := 1 }
    nextGeneration := 2
    pc := .flush true
    atStop := looping.service.roomService }
  pc := .stopPersistence true
  saved := [looping.service.roomService]

theorem stopping_reachable :
  system.Reachable stopping
  := by
  have hcheckpoint : looping.service.roomService.makeCheckpoint true 1
      = some (CheckpointGenerator.generatedCheckpoint 1 4) := by decide +kernel
  have hsave : looping.service.saveNow = (true, { looping.service with
      run := stopping.service.run, nextGeneration := 2 }) := by
    have hmax : (1 : UInt64) ≠ PersistenceService.maxGeneration := by decide
    have hfirst : looping.service.nextGeneration = 1 := rfl
    have hready : ¬(!looping.service.loaded || !looping.service.started) = true := by decide
    rw [PersistenceService.saveNow, if_neg hready, hfirst, if_neg hmax, hcheckpoint]
    rfl
  have hstarted : looping.service.started = true := rfl
  apply looping_reachable.step (ℓ := Label.quit true true true) trivial
  use rfl
  rw [stopAt, if_pos hstarted, recorded, PersistenceService.stop, hstarted, hsave]
  rfl

/-- The first process is ended by a signal, and saves the default room. -/
theorem stopping_exits :
  ∃ process, system.Reachable process ∧ process.pc = .exited 0
    ∧ ∃ checkpoint, Encodes checkpoint process.service.run.disk.path
      ∧ process.service.roomService.makeCheckpoint true checkpoint.generation = some checkpoint
  := by
  have htake := stopping_reachable.step
    (ℓ := Label.writer (StoreRun.Label.take (CheckpointGenerator.generatedCheckpoint 1 4)))
    trivial ⟨_, ⟨_, trivial, ⟨rfl, rfl, rfl, rfl⟩, rfl⟩, rfl⟩
  obtain ⟨data, hencode⟩ : ∃ data,
      CheckpointCodec.encode (CheckpointGenerator.generatedCheckpoint 1 4) [] = (.success, data) :=
    ⟨_, Prod.ext (by decide +kernel) rfl⟩
  have hcommit := commit_reachable htake rfl hencode rfl
  have hfinish := hcommit.step
    (ℓ := Label.writer (StoreRun.Label.finish (CheckpointGenerator.generatedCheckpoint 1 4) true))
    trivial ⟨_, ⟨_, trivial, ⟨rfl, rfl, rfl⟩, rfl⟩, rfl⟩
  have hflush := hfinish.step (ℓ := Label.flush) trivial ⟨_, ⟨true, true, rfl, rfl, rfl⟩, rfl⟩
  have hrequest := hflush.step (ℓ := Label.requestStop) trivial
    ⟨_, ⟨true, _, rfl, rfl, rfl⟩, rfl⟩
  have hexit := hrequest.step (ℓ := Label.writer StoreRun.Label.exit) trivial
    ⟨_, ⟨_, trivial, ⟨rfl, rfl, rfl, rfl, rfl⟩, rfl⟩, rfl⟩
  have hstopped := hexit.step (ℓ := Label.stopped true) trivial
    ⟨_, .inr ⟨true, rfl, rfl, rfl, rfl⟩, rfl⟩
  have hexited := hstopped.step (ℓ := Label.stopSignal true) trivial ⟨true, rfl, rfl⟩
  obtain ⟨checkpoint, hencodes, hrooms, -⟩ := exit_of_reachable hexited rfl
  exact ⟨_, hexited, rfl, checkpoint, hencodes, hrooms⟩

end ServerProcess

end RoomServer
