import RoomServer.Checkpoint.Persistence
import RoomServer.Checkpoint.Restart

/-!
# Loading what was saved

A file that holds the checkpoint of a service that could be saved is loaded by a new process,
unless one of the system calls fails: the file is not too large, the codec reads it, and the
service restored from it has the data of the service that was saved.
-/

namespace RoomServer

open CheckpointStore

/-- One of the system calls of a load fails. -/
def Faulty (opens : Bool) (reads : List Outcome) (closes : Bool) : Prop :=
  opens = false ∨ .failed ∈ reads ∨ closes = false

/-- The checkpoint is that of one of the saved services, and its generation is neither 0 nor the
last number. -/
structure SavedIn (saved : List RoomService) (checkpoint : ServerCheckpoint) : Prop where
  ne_zero : checkpoint.generation ≠ 0
  ne_max : checkpoint.generation ≠ PersistenceService.maxGeneration
  mem : ∃ service ∈ saved, checkpoint = service.checkpoint checkpoint.generation

/-- There is no file, or it holds the checkpoint of one of the saved services. -/
def Recoverable (saved : List RoomService) (file : Option Bytes) : Prop :=
  file = none ∨ ∃ checkpoint, Encodes checkpoint file ∧ SavedIn saved checkpoint

theorem SavedIn.mono {saved saved' : List RoomService} {checkpoint : ServerCheckpoint}
    (h : SavedIn saved checkpoint) (hsub : saved ⊆ saved') :
  SavedIn saved' checkpoint
  := by
  obtain ⟨service, hservice, heq⟩ := h.mem
  exact ⟨h.ne_zero, h.ne_max, service, hsub hservice, heq⟩

theorem Recoverable.mono {saved saved' : List RoomService} {file : Option Bytes}
    (h : Recoverable saved file) (hsub : saved ⊆ saved') :
  Recoverable saved' file
  := by
  obtain hnone | ⟨checkpoint, hencodes, hsaved⟩ := h
  · exact .inl hnone
  · exact .inr ⟨checkpoint, hencodes, hsaved.mono hsub⟩

/-! ### Reading the file -/

/-- A file within the limit is not found too large, and only a read that fails ends the loop
early. -/
theorem readLoop_cases {rest data : Bytes} {outcomes : List Outcome} {readEnd : ReadEnd}
    (hsize : data.length + rest.length ≤ CheckpointStore.maxCheckpointFileSize)
    (h : readLoop rest data outcomes = some readEnd) :
  readEnd = .complete (data ++ rest) ∨ readEnd = .failed ∧ .failed ∈ outcomes
  := by
  induction outcomes generalizing rest data with
  | nil => cases h
  | cons outcome outcomes ih =>
    cases outcome with
    | interrupted =>
      obtain hcomplete | ⟨hfailed, hmem⟩ := ih hsize h
      · exact .inl hcomplete
      · exact .inr ⟨hfailed, List.mem_cons_of_mem _ hmem⟩
    | failed =>
      cases h
      exact .inr ⟨rfl, List.mem_cons_self⟩
    | done n =>
      rw [readLoop] at h
      split at h
      · next hrest =>
        cases h
        rw [hrest, List.append_nil]
        exact .inl rfl
      · have hchunk : (rest.take (min (max n 1) readBufferSize)).length ≤ rest.length := by
          rw [List.length_take]
          apply Nat.min_le_right
        dsimp only at h
        rw [if_neg (by omega)] at h
        have hsame : (data ++ rest.take (min (max n 1) readBufferSize)).length
            + (rest.drop (min (max n 1) readBufferSize)).length = data.length + rest.length := by
          rw [List.length_append, Nat.add_assoc, ← List.length_append, List.take_append_drop]
        obtain hcomplete | ⟨hfailed, hmem⟩ := ih (hsame ▸ hsize) h
        · left
          rw [hcomplete, List.append_assoc, List.take_append_drop]
        · exact .inr ⟨hfailed, List.mem_cons_of_mem _ hmem⟩

/-- The loop ends when the reads take the whole file: each that does not fail and is not
interrupted takes a byte or finds the end. -/
theorem readLoop_isSome {rest data : Bytes} {outcomes : List Outcome}
    (h : rest.length < (outcomes.filter fun outcome => outcome matches .done _).length) :
  (readLoop rest data outcomes).isSome
  := by
  induction outcomes generalizing rest data with
  | nil => cases h
  | cons outcome outcomes ih =>
    cases outcome with
    | interrupted => apply ih h
    | failed => rfl
    | done n =>
      rw [readLoop]
      split
      · rfl
      · next hrest =>
        dsimp only
        split
        · rfl
        · apply ih
          have hpos := List.length_pos_iff.mpr hrest
          have hlength : ((Outcome.done n :: outcomes).filter
              fun outcome => outcome matches .done _).length
              = (outcomes.filter fun outcome => outcome matches .done _).length + 1 := rfl
          rw [hlength] at h
          rw [List.length_drop, readBufferSize]
          omega

/-- An encoded file is within the limit. -/
theorem Encodes.length_le {checkpoint : ServerCheckpoint} {data : Bytes}
    (h : Encodes checkpoint (some data)) :
  data.length ≤ CheckpointStore.maxCheckpointFileSize
  := by
  obtain ⟨_, hencode, heq⟩ := h
  cases heq
  obtain ⟨hencodable, heq⟩ | ⟨-, hne, -⟩ := CheckpointCodec.encode_cases checkpoint []
  · rw [heq, Prod.mk.injEq] at hencode
    have hsize := hencodable.size_le
    rw [← hencode.2, CheckpointCodec.length_fileBytes]
    simp only [CheckpointCodec.maxPayloadSize, CheckpointCodec.maxCheckpointFileSize,
      CheckpointCodec.checkpointHeaderSize, CheckpointStore.maxCheckpointFileSize] at hsize ⊢
    omega
  · rw [hencode] at hne
    exact absurd rfl hne

/-- The file decodes as the checkpoint it was encoded from. -/
theorem Encodes.decode {checkpoint : ServerCheckpoint} {data : Bytes}
    (h : Encodes checkpoint (some data)) (output : ServerCheckpoint) :
  CheckpointCodec.decode data output = (.success, checkpoint)
  := by
  obtain ⟨_, hencode, heq⟩ := h
  cases heq
  have hround := CheckpointCodec.encode_decode_round checkpoint [] output (by rw [hencode])
  rwa [hencode] at hround

theorem Encodes.generation_ne_zero {checkpoint : ServerCheckpoint} {file : Option Bytes}
    (h : Encodes checkpoint file) :
  checkpoint.generation ≠ 0
  := by
  obtain ⟨data, hencode, -⟩ := h
  obtain ⟨hencodable, -⟩ | ⟨-, hne, -⟩ := CheckpointCodec.encode_cases checkpoint []
  · exact hencodable.generation_ne_zero
  · rw [hencode] at hne
    exact absurd rfl hne

/-- A new store loads an encoded file, unless a system call fails. -/
theorem load_of_encodes {path : String} {disk : Disk} {opens closes : Bool}
    {reads : List Outcome} {state : Loadstates} {store : CheckpointStore}
    {checkpoint : ServerCheckpoint} (hpath : path.isEmpty = false)
    (hencodes : Encodes checkpoint disk.path)
    (h : (CheckpointStore.new path).load disk opens reads closes = some (state, store)) :
  state = .success ∨ state = .ioError ∧ Faulty opens reads closes
  := by
  obtain ⟨data, hencode, hdata⟩ := id hencodes
  rw [hdata] at hencodes
  have hfree : ¬(CheckpointStore.new path).occupied = true := by
    simp [occupied, CheckpointStore.new, hpath]
  rw [load, if_neg hfree, hdata] at h
  dsimp only at h
  split at h
  · next hopens =>
    cases h
    exact .inr ⟨rfl, .inl (by simpa using hopens)⟩
  split at h
  · cases h
  · next hread =>
    cases h
    obtain hcomplete | ⟨-, hmem⟩ := readLoop_cases (by simpa using hencodes.length_le) hread
    · cases hcomplete
    · exact .inr ⟨rfl, .inr (.inl hmem)⟩
  · next hread =>
    obtain hcomplete | ⟨hfailed, -⟩ := readLoop_cases (by simpa using hencodes.length_le) hread
    · cases hcomplete
    · cases hfailed
  next content hread =>
  have hcontent := readLoop_complete hread
  rw [List.nil_append] at hcontent
  split at h
  · next hcloses =>
    cases h
    exact .inr ⟨rfl, .inr (.inr (by simpa using hcloses))⟩
  · rw [hcontent, hencodes.decode] at h
    cases h
    exact .inl rfl

/-- A load returns when its reads take the whole file. -/
theorem CheckpointStore.load_isSome {store : CheckpointStore} {disk : Disk}
    {opens closes : Bool} {reads : List Outcome}
    (hreads : ∀ content, disk.path = some content →
      content.length < (reads.filter fun outcome => outcome matches .done _).length) :
  (store.load disk opens reads closes).isSome
  := by
  rw [load]
  split
  · rfl
  split
  · rfl
  next content hcontent =>
  split
  · rfl
  have hloop : (readLoop content [] reads).isSome := readLoop_isSome (hreads content hcontent)
  obtain ⟨readEnd, hread⟩ := Option.isSome_iff_exists.mp hloop
  rw [hread]
  cases readEnd with
  | complete data =>
    dsimp only
    split
    · rfl
    · split <;> rfl
  | tooLarge => rfl
  | failed => rfl

/-- The record of the file that was found stays. -/
theorem StoreRun.found_of_step {run run' : StoreRun} {label : StoreRun.Label}
    (hstep : run.Step label run') :
  run'.found = run.found
  := by
  obtain ⟨-, hstep⟩ := hstep
  cases label with
  | start created result =>
    obtain ⟨-, -, rfl⟩ := hstep
    rfl
  | submit checkpoint result =>
    obtain ⟨-, -, rfl⟩ := hstep
    cases result <;> rfl
  | flush result =>
    obtain ⟨-, -, rfl⟩ := hstep
    rfl
  | stop result =>
    obtain ⟨-, -, rfl⟩ := hstep
    rfl
  | requestStop =>
    obtain ⟨-, store, -, rfl⟩ := hstep
    rfl
  | completeStop result =>
    obtain ⟨-, -, -, rfl⟩ := hstep
    rfl
  | take checkpoint =>
    obtain ⟨-, -, rfl⟩ := hstep
    rfl
  | exit =>
    obtain ⟨-, -, -, rfl⟩ := hstep
    rfl
  | commit outcome =>
    cases hstep
    rfl
  | finish checkpoint committed =>
    obtain ⟨-, rfl⟩ := hstep
    rfl
  | crash =>
    cases hstep
    rfl

/-! ### Restoring the service -/

namespace PersistenceService

/-- A new process that loads a file of a saved service restores the data of that service;
without a file it finds none; and it fails in no way but through a system call. -/
theorem load_of_recoverable {saved : List RoomService}
    (hsaved : ∀ service ∈ saved, service.Saveable) {reconnectTimeout : Int} {path : String}
    (hpath : path.isEmpty = false) {disk : Disk} (hdisk : Recoverable saved disk.path)
    {opens closes : Bool} {reads : List Outcome} {now : Int} {state : Loadstates}
    {service' : PersistenceService}
    (h : (new (.new reconnectTimeout) path disk).load opens reads closes now
      = some (state, service')) :
  state = .ioError ∧ Faulty opens reads closes ∧ service'.roomService = .new reconnectTimeout
    ∨ state = .notFound ∧ disk.path = none ∧ service'.roomService = .new reconnectTimeout
    ∨ state = .restored ∧ service'.roomService.Saveable
      ∧ ∃ checkpoint service, Encodes checkpoint disk.path ∧ service ∈ saved
        ∧ checkpoint = service.checkpoint checkpoint.generation
        ∧ ∀ generation,
          service'.roomService.checkpoint generation = service.checkpoint generation
  := by
  have hfree : ¬(CheckpointStore.new path).occupied = true := by
    simp [occupied, CheckpointStore.new, hpath]
  rw [load, if_neg (by simp [new])] at h
  obtain hnone | ⟨checkpoint, hencodes, hne_zero, hne_max, service, hservice, heq⟩ := hdisk
  · have hload : (new (.new reconnectTimeout) path disk).run.store.load
        (new (.new reconnectTimeout) path disk).run.disk opens reads closes
        = some (if opens then .notFound else .ioError, CheckpointStore.new path) := by
      simp only [new, CheckpointStore.load, if_neg hfree, hnone]
    rw [hload] at h
    cases opens with
    | false =>
      cases h
      exact .inl ⟨rfl, .inl rfl, rfl⟩
    | true =>
      cases h
      exact .inr (.inl ⟨rfl, hnone, rfl⟩)
  · split at h
    · cases h
    · next hload =>
      obtain hstate | ⟨hstate, -⟩ := load_of_encodes hpath hencodes hload <;> cases hstate
    · next hload =>
      obtain hstate | ⟨hstate, -⟩ := load_of_encodes hpath hencodes hload <;> cases hstate
    · next hload =>
      cases h
      obtain hstate | ⟨-, hfaulty⟩ := load_of_encodes hpath hencodes hload
      · cases hstate
      · exact .inl ⟨rfl, hfaulty, rfl⟩
    · next hload =>
      obtain hstate | ⟨hstate, -⟩ := load_of_encodes hpath hencodes hload <;> cases hstate
    · have hfile : fileCheckpoint (new (.new reconnectTimeout) path disk).run.disk.path
          = checkpoint := by
        obtain ⟨data, -, hdata⟩ := id hencodes
        rw [hdata] at hencodes
        simp only [new, hdata, fileCheckpoint, hencodes.decode]
      rw [hfile] at h
      dsimp only at h
      rw [if_neg hne_max] at h
      obtain ⟨roomService, hrestore⟩ :=
        (hsaved service hservice).restores hne_zero reconnectTimeout now
      rw [← heq] at hrestore
      have hsame : (new (.new reconnectTimeout) path disk).roomService.restoreCheckpoint true
          checkpoint now = (true, roomService) := hrestore
      rw [hsame] at h
      cases h
      rw [heq] at hrestore
      obtain ⟨hsaveable, hdata⟩ := (hsaved service hservice).restored hrestore
      exact .inr (.inr ⟨rfl, hsaveable, checkpoint, service, hencodes, hservice, heq, hdata⟩)

/-- A load returns when its reads take the whole file. -/
theorem load_isSome {roomService : RoomService} {path : String} {disk : Disk}
    {opens closes : Bool} {reads : List Outcome} (now : Int)
    (hreads : ∀ content, disk.path = some content →
      content.length < (reads.filter fun outcome => outcome matches .done _).length) :
  ((new roomService path disk).load opens reads closes now).isSome
  := by
  have hstore : ((CheckpointStore.new path).load disk opens reads closes).isSome :=
    CheckpointStore.load_isSome hreads
  obtain ⟨⟨state, store⟩, hload⟩ := Option.isSome_iff_exists.mp hstore
  have hsame : (new roomService path disk).run.store.load (new roomService path disk).run.disk
      opens reads closes = some (state, store) := hload
  rw [load, if_neg (by simp [new]), hsame]
  cases state with
  | success =>
    dsimp only
    split
    · rfl
    · split <;> rfl
  | notFound => rfl
  | invalidState => rfl
  | ioError => rfl
  | decodeError => rfl

end PersistenceService

end RoomServer
