import RoomServer.Checkpoint.Store

/-!
# Runs of the checkpoint store

The file at the path of the store is never partial: it is the one that was found, or the
encoding of an accepted checkpoint, and never an older one than before.  `flush` and `stop`
are honest: when they succeed, it is the encoding of the last accepted checkpoint.
-/

namespace RoomServer

open CheckpointStore

/-! ### Files -/

/-- The file is the encoding of the checkpoint. -/
def Encodes (checkpoint : ServerCheckpoint) (file : Option Bytes) : Prop :=
  ∃ data, CheckpointCodec.encode checkpoint [] = (.success, data) ∧ file = some data

/-- The generation a file holds, 0 when there is none. -/
def fileGeneration : Option Bytes → UInt64
  | none => 0
  | some data => (CheckpointCodec.decode data ⟨0, [], []⟩).2.generation

theorem Encodes.fileGeneration_eq {checkpoint : ServerCheckpoint} {file : Option Bytes}
    (h : Encodes checkpoint file) :
  fileGeneration file = checkpoint.generation
  := by
  obtain ⟨data, hencode, rfl⟩ := h
  have hround := CheckpointCodec.encode_decode_round checkpoint [] ⟨0, [], []⟩ (by rw [hencode])
  rw [hencode] at hround
  rw [fileGeneration, hround]

/-! ### Loading -/

theorem readLoop_complete {rest data data' : Bytes} {outcomes : List Outcome}
    (h : readLoop rest data outcomes = some (.complete data')) :
  data' = data ++ rest
  := by
  induction outcomes generalizing rest data with
  | nil => cases h
  | cons outcome outcomes ih =>
    cases outcome with
    | interrupted => apply ih h
    | failed => cases h
    | done n =>
      rw [readLoop] at h
      split at h
      · next hrest =>
        cases h
        rw [hrest, List.append_nil]
      · dsimp only at h
        split at h
        · cases h
        · rw [ih h, List.append_assoc, List.take_append_drop]

/-- A loaded store takes the generation of the file it found. -/
theorem load_spec {path : String} {disk : Disk} {opens closes : Bool} {reads : List Outcome}
    {state : Loadstates} {store : CheckpointStore}
    (h : (CheckpointStore.new path).load disk opens reads closes = some (state, store))
    (hstate : state = .success ∨ state = .notFound) :
  store = { CheckpointStore.new path with
    lastSubmittedGeneration := fileGeneration disk.path
    lastCommittedGeneration := fileGeneration disk.path }
  := by
  rw [load] at h
  split at h
  · cases h
    simp at hstate
  split at h
  · next hpath =>
    cases h
    rw [hpath]
    rfl
  next content hpath =>
  split at h
  · cases h
    simp at hstate
  split at h
  · cases h
  · cases h
    simp at hstate
  · cases h
    split at hstate <;> simp at hstate
  next data hread =>
  split at h
  · cases h
    simp at hstate
  split at h
  · next checkpoint hdecode =>
    cases h
    rw [readLoop_complete hread, List.nil_append] at hdecode
    rw [hpath, fileGeneration, hdecode]
  · cases h
    simp at hstate

/-! ### The writer -/

/-- What the writer has prepared when it comes to a step of its commit. -/
def Writer.Prepared (disk : Disk) : CheckpointStore.Writer → Prop
  | .openFile checkpoint data => CheckpointCodec.encode checkpoint [] = (.success, data)
  | .writeFile checkpoint data offset =>
    CheckpointCodec.encode checkpoint [] = (.success, data)
      ∧ disk.temporary = some (data.take offset)
  | .syncFile checkpoint data | .closeFile checkpoint data | .renameFile checkpoint data =>
    CheckpointCodec.encode checkpoint [] = (.success, data) ∧ disk.temporary = some data
  | .openDirectory checkpoint | .syncDirectory checkpoint | .closeDirectory checkpoint _
  | .report checkpoint true => Encodes checkpoint disk.path
  | _ => True

/-- The temporary file holds what was written so far. -/
theorem prepared_writeFile (outcome : Outcome) {disk : Disk} {checkpoint : ServerCheckpoint}
    {data : Bytes} {offset : Nat}
    (h : Writer.Prepared disk (.writeFile checkpoint data offset)) :
  let (writer, disk') := commitStep outcome disk (.writeFile checkpoint data offset)
  writer.current = some checkpoint ∧ Writer.Prepared disk' writer ∧ disk'.path = disk.path
  := by
  obtain ⟨hencode, htemporary⟩ := h
  by_cases hoffset : data.length ≤ offset
  · have hstep : commitStep outcome disk (.writeFile checkpoint data offset)
        = (.syncFile checkpoint data, disk) := if_pos hoffset
    rw [hstep]
    refine ⟨rfl, ⟨hencode, ?_⟩, rfl⟩
    rw [htemporary, List.take_of_length_le hoffset]
  · have hstep : commitStep outcome disk (.writeFile checkpoint data offset) = _ :=
      if_neg hoffset
    rw [hstep]
    cases outcome with
    | done n =>
      cases n with
      | zero => exact ⟨rfl, trivial, rfl⟩
      | succ n =>
        refine ⟨rfl, ⟨hencode, ?_⟩, rfl⟩
        change disk.temporary.map (· ++ (data.drop offset).take
          (min (n + 1) (data.length - offset))) = _
        rw [htemporary, Option.map_some, List.take_add]
    | interrupted => exact ⟨rfl, ⟨hencode, htemporary⟩, rfl⟩
    | failed => exact ⟨rfl, trivial, rfl⟩

/-- A step of a commit leaves the file at the path as it is, or puts the whole encoding of the
checkpoint there. -/
theorem commitStep_spec (outcome : Outcome) {disk : Disk} {writer : CheckpointStore.Writer}
    (h : Writer.Prepared disk writer) :
  (commitStep outcome disk writer).1.current = writer.current
    ∧ Writer.Prepared (commitStep outcome disk writer).2 (commitStep outcome disk writer).1
    ∧ ((commitStep outcome disk writer).2.path = disk.path
      ∨ ∃ checkpoint, writer.current = some checkpoint
        ∧ Encodes checkpoint (commitStep outcome disk writer).2.path)
  := by
  cases writer with
  | absent => exact ⟨rfl, trivial, .inl rfl⟩
  | waiting => exact ⟨rfl, trivial, .inl rfl⟩
  | exited => exact ⟨rfl, trivial, .inl rfl⟩
  | report checkpoint committed => exact ⟨rfl, h, .inl rfl⟩
  | encode checkpoint =>
    rw [commitStep.eq_def]
    dsimp only
    split
    · next hencode => exact ⟨rfl, hencode, .inl rfl⟩
    · exact ⟨rfl, trivial, .inl rfl⟩
  | openFile checkpoint data =>
    cases outcome with
    | done n => exact ⟨rfl, ⟨h, by simp [commitStep]⟩, .inl rfl⟩
    | interrupted => exact ⟨rfl, trivial, .inl rfl⟩
    | failed => exact ⟨rfl, trivial, .inl rfl⟩
  | writeFile checkpoint data offset =>
    obtain ⟨hcurrent, hprepared, hpath⟩ := prepared_writeFile outcome h
    exact ⟨hcurrent, hprepared, .inl hpath⟩
  | syncFile checkpoint data =>
    cases outcome with
    | done n => exact ⟨rfl, h, .inl rfl⟩
    | interrupted => exact ⟨rfl, h, .inl rfl⟩
    | failed => exact ⟨rfl, trivial, .inl rfl⟩
  | closeFile checkpoint data =>
    cases outcome with
    | done n => exact ⟨rfl, h, .inl rfl⟩
    | interrupted => exact ⟨rfl, trivial, .inl rfl⟩
    | failed => exact ⟨rfl, trivial, .inl rfl⟩
  | renameFile checkpoint data =>
    obtain ⟨hencode, htemporary⟩ := h
    cases outcome with
    | done n =>
      have hstep : commitStep (.done n) disk (.renameFile checkpoint data)
          = (.openDirectory checkpoint, ⟨some data, none⟩) := by
        rw [commitStep.eq_def, htemporary]
      have hnew : Encodes checkpoint (some data) := ⟨data, hencode, rfl⟩
      rw [hstep]
      exact ⟨rfl, hnew, .inr ⟨checkpoint, rfl, hnew⟩⟩
    | interrupted => exact ⟨rfl, trivial, .inl rfl⟩
    | failed => exact ⟨rfl, trivial, .inl rfl⟩
  | abandon checkpoint => exact ⟨rfl, trivial, .inl rfl⟩
  | unlinkFile checkpoint => cases outcome <;> exact ⟨rfl, trivial, .inl rfl⟩
  | openDirectory checkpoint =>
    cases outcome with
    | done n => exact ⟨rfl, h, .inl rfl⟩
    | interrupted => exact ⟨rfl, trivial, .inl rfl⟩
    | failed => exact ⟨rfl, trivial, .inl rfl⟩
  | syncDirectory checkpoint => cases outcome <;> exact ⟨rfl, h, .inl rfl⟩
  | closeDirectory checkpoint synced =>
    cases outcome with
    | done n =>
      refine ⟨rfl, ?_, .inl rfl⟩
      cases synced with
      | true => exact h
      | false => trivial
    | interrupted => exact ⟨rfl, trivial, .inl rfl⟩
    | failed => exact ⟨rfl, trivial, .inl rfl⟩

/-- A writer without a checkpoint does not commit. -/
theorem commitStep_of_idle (outcome : Outcome) (disk : Disk) {writer : CheckpointStore.Writer}
    (h : writer.current = none) :
  commitStep outcome disk writer = (writer, disk)
  := by
  cases writer with
  | absent | waiting | exited => rfl
  | _ => cases h

/-! ### The invariant -/

namespace StoreRun

variable {run run' : StoreRun} {label : Label}

/-- The generation of the last accepted checkpoint, or of the file that was found. -/
def lastGeneration (run : StoreRun) : UInt64 :=
  match run.accepted.getLast? with
  | none => fileGeneration run.found
  | some checkpoint => checkpoint.generation

/-- The accepted checkpoints come in the order of their generations.  The one that waits is
the last of them; the one the writer is busy with is one of them, and not older than the file
at the path.  Each of them has been committed or not, was replaced, waits, or is being
written. -/
structure Inv (run : StoreRun) : Prop where
  sorted : run.accepted.Pairwise fun c c' => c.generation < c'.generation
  found_lt : ∀ c ∈ run.accepted, fileGeneration run.found < c.generation
  submitted : run.store.lastSubmittedGeneration = run.lastGeneration
  pending : ∀ c, run.store.pendingCheckpoint = some c → run.accepted.getLast? = some c
  current : ∀ c, run.writer.current = some c →
    c ∈ run.accepted ∧ fileGeneration run.disk.path ≤ c.generation
  path : run.disk.path = run.found ∨ ∃ c ∈ run.accepted, Encodes c run.disk.path
  committed_le : run.store.lastCommittedGeneration ≤ fileGeneration run.disk.path
  prepared : Writer.Prepared run.disk run.writer
  writing : ∀ c, run.writer.current = some c → run.store.writing = true
  stopping : run.store.stopping = true → run.joining = true
  absent : run.writer = .absent → run.store.started = false ∧ run.store.pendingCheckpoint = none
  exited : run.writer = .exited → run.joining = true ∧ run.store.pendingCheckpoint = none
  covered : ∀ c ∈ run.accepted, c ∈ run.committed ∨ c ∈ run.failed
    ∨ (∃ c', (c, c') ∈ run.replaced) ∨ run.store.pendingCheckpoint = some c
    ∨ run.writer.current = some c
  replaced : ∀ c c', (c, c') ∈ run.replaced → c' ∈ run.accepted ∧ c.generation < c'.generation

/-- No accepted checkpoint is newer than the last one. -/
theorem Inv.le_submitted (h : run.Inv) {c : ServerCheckpoint} (hc : c ∈ run.accepted) :
  c.generation ≤ run.store.lastSubmittedGeneration
  := by
  rw [h.submitted, lastGeneration]
  rcases List.eq_nil_or_concat run.accepted with hnil | ⟨l, last, heq⟩
  · rw [hnil] at hc
    cases hc
  · have hsorted := h.sorted
    rw [heq, List.concat_eq_append] at hsorted hc ⊢
    rw [List.getLast?_concat]
    rcases List.mem_append.mp hc with hmem | hmem
    · apply UInt64.le_of_lt
      apply (List.pairwise_append.mp hsorted).2.2 c hmem last List.mem_cons_self
    · rw [List.mem_singleton] at hmem
      rw [hmem]
      apply UInt64.le_refl _

theorem Inv.found_le (h : run.Inv) :
  fileGeneration run.found ≤ run.store.lastSubmittedGeneration
  := by
  rw [h.submitted, lastGeneration]
  cases hlast : run.accepted.getLast? with
  | none => apply UInt64.le_refl _
  | some c => apply UInt64.le_of_lt (h.found_lt c (List.mem_of_getLast? hlast))

/-- The file at the path is not newer than the last accepted checkpoint. -/
theorem Inv.path_le (h : run.Inv) :
  fileGeneration run.disk.path ≤ run.store.lastSubmittedGeneration
  := by
  rcases h.path with heq | ⟨c, hc, hencodes⟩
  · rw [heq]
    apply h.found_le
  · rw [hencodes.fileGeneration_eq]
    apply h.le_submitted hc

theorem Inv.committed_le_submitted (h : run.Inv) :
  run.store.lastCommittedGeneration ≤ run.store.lastSubmittedGeneration
  := UInt64.le_trans h.committed_le h.path_le

/-- A loaded store keeps the invariant. -/
theorem inv_of_loaded (h : run.Loaded) : run.Inv := by
  obtain ⟨path, opens, reads, closes, state, hload, hstate, hwriter, hjoining, -, hfound,
    haccepted, hreplaced, -, -⟩ := h
  have hstore := load_spec hload hstate
  have hpending : run.store.pendingCheckpoint = none := by
    rw [hstore]
    rfl
  have hcurrent : ∀ c, run.writer.current ≠ some c := by
    intro c hc
    rw [hwriter] at hc
    cases hc
  constructor
  · rw [haccepted]
    exact .nil
  · simp [haccepted]
  · rw [hstore, lastGeneration, haccepted, hfound]
    rfl
  · intro c hc
    rw [hpending] at hc
    cases hc
  · intro c hc
    exact absurd hc (hcurrent c)
  · exact .inl hfound.symm
  · rw [hstore]
    apply UInt64.le_refl _
  · rw [hwriter]
    trivial
  · intro c hc
    exact absurd hc (hcurrent c)
  · intro hstopping
    rw [hstore] at hstopping
    cases hstopping
  · intro _
    refine ⟨?_, hpending⟩
    rw [hstore]
    rfl
  · intro hexited
    rw [hwriter] at hexited
    cases hexited
  · simp [haccepted]
  · simp [hreplaced]

/-! ### The steps -/

/-- `start` does nothing, or it starts the writer of a store that is at rest. -/
theorem start_cases (store : CheckpointStore) (created : Bool) :
  store.start created = (false, store)
    ∨ store.start created = (true, { store with started := true })
      ∧ store.writing = false ∧ store.pendingCheckpoint = none
  := by
  rw [CheckpointStore.start]
  split
  · left; rfl
  · next hoccupied =>
    split
    · left; rfl
    · right
      use rfl
      simp only [occupied, Bool.or_eq_true, not_or, Bool.not_eq_true, Option.isSome_eq_false_iff,
        Option.isNone_iff_eq_none] at hoccupied
      exact ⟨hoccupied.1.2, hoccupied.2⟩

/-- `submit` does nothing, or it accepts a checkpoint newer than the last one. -/
theorem submit_cases (store : CheckpointStore) (checkpoint : ServerCheckpoint) :
  store.submit checkpoint = (false, store)
    ∨ store.submit checkpoint = (true, { store with
        pendingCheckpoint := some checkpoint
        lastSubmittedGeneration := checkpoint.generation })
      ∧ store.started = true ∧ store.lastSubmittedGeneration < checkpoint.generation
  := by
  rw [CheckpointStore.submit]
  split
  · left; rfl
  · next h =>
    right
    use rfl
    simp only [Bool.or_eq_true, Bool.not_eq_eq_eq_not, Bool.not_true, decide_eq_true_eq, not_or,
      Bool.not_eq_false, UInt64.not_le] at h
    exact ⟨h.1.1.1.2, h.2⟩

theorem Inv.start (h : run.Inv) (created : Bool) :
  Inv { run with
    store := (run.store.start created).2
    writer := if (run.store.start created).1 then .waiting else run.writer }
  := by
  obtain heq | ⟨heq, hwriting, hpending⟩ := start_cases run.store created
  · rw [heq]
    exact h
  · rw [heq]
    have hnone : ∀ c, run.writer.current ≠ some c := by
      intro c hc
      have := h.writing c hc
      rw [hwriting] at this
      cases this
    refine { h with
        current := ?_, prepared := trivial, writing := ?_, absent := ?_, exited := ?_
        covered := ?_ }
    · rintro c ⟨⟩
    · rintro c ⟨⟩
    · rintro ⟨⟩
    · rintro ⟨⟩
    · intro c hc
      rcases h.covered c hc with hc | hc | hc | hc | hc
      · exact .inl hc
      · exact .inr (.inl hc)
      · exact .inr (.inr (.inl hc))
      · exact .inr (.inr (.inr (.inl hc)))
      · exact absurd hc (hnone c)

theorem Inv.accept (h : run.Inv) {checkpoint : ServerCheckpoint}
    (hjoining : run.joining = false) (hstarted : run.store.started = true)
    (hnewer : run.store.lastSubmittedGeneration < checkpoint.generation) :
  Inv (run.accept checkpoint { run.store with
    pendingCheckpoint := some checkpoint
    lastSubmittedGeneration := checkpoint.generation })
  := by
  constructor
  · apply List.pairwise_append.mpr
    refine ⟨h.sorted, List.pairwise_singleton _ _, ?_⟩
    intro c hc c' hc'
    rw [List.mem_singleton] at hc'
    rw [hc']
    apply UInt64.lt_of_le_of_lt (h.le_submitted hc) hnewer
  · intro c hc
    rcases List.mem_append.mp hc with hc | hc
    · apply h.found_lt c hc
    · rw [List.mem_singleton] at hc
      rw [hc]
      apply UInt64.lt_of_le_of_lt h.found_le hnewer
  · simp [lastGeneration, StoreRun.accept]
  · rintro c ⟨⟩
    apply List.getLast?_concat
  · intro c hc
    obtain ⟨hmem, hle⟩ := h.current c hc
    exact ⟨List.mem_append_left _ hmem, hle⟩
  · rcases h.path with heq | ⟨c, hc, hencodes⟩
    · exact .inl heq
    · exact .inr ⟨c, List.mem_append_left _ hc, hencodes⟩
  · apply h.committed_le
  · apply h.prepared
  · apply h.writing
  · apply h.stopping
  · intro habsent
    have := (h.absent habsent).1
    rw [hstarted] at this
    cases this
  · intro hexited
    have := (h.exited hexited).1
    rw [hjoining] at this
    cases this
  · intro c hc
    rcases List.mem_append.mp hc with hc | hc
    · rcases h.covered c hc with hc | hc | ⟨c', hc⟩ | hc | hc
      · exact .inl hc
      · exact .inr (.inl hc)
      · exact .inr (.inr (.inl ⟨c', List.mem_append_left _ hc⟩))
      · -- The checkpoint that waited is replaced.
        refine .inr (.inr (.inl ⟨checkpoint, List.mem_append_right _ ?_⟩))
        simp [hc]
      · exact .inr (.inr (.inr (.inr hc)))
    · rw [List.mem_singleton] at hc
      rw [hc]
      exact .inr (.inr (.inr (.inl rfl)))
  · intro c c' hc
    rcases List.mem_append.mp hc with hc | hc
    · obtain ⟨hmem, hlt⟩ := h.replaced c c' hc
      exact ⟨List.mem_append_left _ hmem, hlt⟩
    · simp only [List.mem_map, Option.mem_toList, Prod.mk.injEq] at hc
      obtain ⟨old, hpending, rfl, rfl⟩ := hc
      refine ⟨List.mem_append_right _ List.mem_cons_self, ?_⟩
      have hmem := List.mem_of_getLast? (h.pending old hpending)
      apply UInt64.lt_of_le_of_lt (h.le_submitted hmem) hnewer

theorem Inv.take (h : run.Inv) {checkpoint : ServerCheckpoint}
    (hpending : run.store.pendingCheckpoint = some checkpoint)
    (hwriter : run.writer = .waiting) :
  Inv { run with store := run.store.take, writer := .encode checkpoint }
  := by
  have hlast := h.pending checkpoint hpending
  refine { h with
      pending := ?_, current := ?_, prepared := trivial, writing := ?_, absent := ?_, exited := ?_
      covered := ?_ }
  · rintro c ⟨⟩
  · rintro c ⟨⟩
    refine ⟨List.mem_of_getLast? hlast, ?_⟩
    have hle := h.path_le
    rw [h.submitted, lastGeneration, hlast] at hle
    exact hle
  · intro c _
    rfl
  · rintro ⟨⟩
  · rintro ⟨⟩
  · intro c hc
    rcases h.covered c hc with hc | hc | hc | hc | hc
    · exact .inl hc
    · exact .inr (.inl hc)
    · exact .inr (.inr (.inl hc))
    · rw [hpending] at hc
      exact .inr (.inr (.inr (.inr hc)))
    · rw [hwriter] at hc
      cases hc

/-- A step of a commit leaves the file at the path, or puts a newer checkpoint there. -/
theorem Inv.commit_path (h : run.Inv) (outcome : Outcome) :
  fileGeneration run.disk.path
    ≤ fileGeneration (commitStep outcome run.disk run.writer).2.path
  := by
  obtain ⟨-, -, heq | ⟨checkpoint, hcurrent, hencodes⟩⟩ := commitStep_spec outcome h.prepared
  · rw [heq]
    apply UInt64.le_refl _
  · rw [hencodes.fileGeneration_eq]
    apply (h.current checkpoint hcurrent).2

theorem Inv.commit (h : run.Inv) (outcome : Outcome) :
  Inv { run with
    writer := (commitStep outcome run.disk run.writer).1
    disk := (commitStep outcome run.disk run.writer).2 }
  := by
  obtain ⟨hcurrent, hprepared, hpath⟩ := commitStep_spec outcome h.prepared
  have hidle : (commitStep outcome run.disk run.writer).1.current = none
      → (commitStep outcome run.disk run.writer).1 = run.writer := by
    intro hnone
    rw [commitStep_of_idle outcome run.disk (hcurrent ▸ hnone)]
  constructor
  · apply h.sorted
  · apply h.found_lt
  · apply h.submitted
  · apply h.pending
  · intro c hc
    rw [hcurrent] at hc
    obtain ⟨hmem, hle⟩ := h.current c hc
    refine ⟨hmem, ?_⟩
    rcases hpath with heq | ⟨checkpoint, hcheckpoint, hencodes⟩
    · rw [heq]
      exact hle
    · rw [hcheckpoint] at hc
      cases hc
      rw [hencodes.fileGeneration_eq]
      apply UInt64.le_refl _
  · rcases hpath with heq | ⟨checkpoint, hcheckpoint, hencodes⟩
    · rw [heq]
      apply h.path
    · exact .inr ⟨checkpoint, (h.current checkpoint hcheckpoint).1, hencodes⟩
  · apply UInt64.le_trans h.committed_le (h.commit_path outcome)
  · exact hprepared
  · intro c hc
    rw [hcurrent] at hc
    apply h.writing c hc
  · apply h.stopping
  · intro (habsent : (commitStep outcome run.disk run.writer).1 = .absent)
    apply h.absent
    rw [← hidle (by rw [habsent]; rfl), habsent]
  · intro (hexited : (commitStep outcome run.disk run.writer).1 = .exited)
    apply h.exited
    rw [← hidle (by rw [hexited]; rfl), hexited]
  · intro c hc
    have := h.covered c hc
    rwa [← hcurrent] at this
  · apply h.replaced

theorem Inv.finish (h : run.Inv) {checkpoint : ServerCheckpoint} {committed : Bool}
    (hwriter : run.writer = .report checkpoint committed) :
  Inv { run with
    store := run.store.settle checkpoint committed
    writer := .waiting
    committed := if committed then run.committed ++ [checkpoint] else run.committed
    failed := if committed then run.failed else run.failed ++ [checkpoint] }
  := by
  have hcurrent : run.writer.current = some checkpoint := by rw [hwriter]; rfl
  have hpending : (run.store.settle checkpoint committed).pendingCheckpoint
      = run.store.pendingCheckpoint := by
    cases committed <;> rfl
  have hsubmitted : (run.store.settle checkpoint committed).lastSubmittedGeneration
      = run.store.lastSubmittedGeneration := by
    cases committed <;> rfl
  have hstopping : (run.store.settle checkpoint committed).stopping = run.store.stopping := by
    cases committed <;> rfl
  constructor
  · apply h.sorted
  · apply h.found_lt
  · apply hsubmitted.trans h.submitted
  · intro c hc
    apply h.pending c (hpending.symm.trans hc)
  · rintro c ⟨⟩
  · apply h.path
  · cases committed with
    | true =>
      have hencodes : Encodes checkpoint run.disk.path := by
        have := h.prepared
        rwa [hwriter] at this
      change checkpoint.generation ≤ fileGeneration run.disk.path
      rw [hencodes.fileGeneration_eq]
      apply UInt64.le_refl _
    | false => apply h.committed_le
  · trivial
  · rintro c ⟨⟩
  · intro h'
    apply h.stopping (hstopping.symm.trans h')
  · rintro ⟨⟩
  · rintro ⟨⟩
  · intro c hc
    rw [hpending]
    rcases h.covered c hc with hdone | hdone | hdone | hdone | hdone
    · left
      cases committed with
      | true => apply List.mem_append_left _ hdone
      | false => exact hdone
    · right; left
      cases committed with
      | true => exact hdone
      | false => apply List.mem_append_left _ hdone
    · exact .inr (.inr (.inl hdone))
    · exact .inr (.inr (.inr (.inl hdone)))
    · rw [hcurrent] at hdone
      cases hdone
      cases committed with
      | true => exact .inl (List.mem_append_right _ List.mem_cons_self)
      | false => exact .inr (.inl (List.mem_append_right _ List.mem_cons_self))
  · apply h.replaced

theorem Inv.exit (h : run.Inv) (hwriter : run.writer = .waiting) (hjoining : run.joining = true)
    (hpending : run.store.pendingCheckpoint = none) :
  Inv { run with writer := .exited }
  := by
  refine { h with
      current := ?_, prepared := trivial, writing := ?_, absent := ?_, exited := ?_, covered := ?_ }
  · rintro c ⟨⟩
  · rintro c ⟨⟩
  · rintro ⟨⟩
  · intro _
    exact ⟨hjoining, hpending⟩
  · intro c hc
    have := h.covered c hc
    rwa [hwriter] at this

theorem Inv.requestStop (h : run.Inv) :
  Inv { run with store := { run.store with stopping := true }, joining := true }
  := by
  refine { h with
      stopping := fun _ => rfl, exited := ?_ }
  intro hexited
  exact ⟨rfl, (h.exited hexited).2⟩

theorem Inv.completeStop (h : run.Inv) (hwriter : run.writer = .exited) :
  Inv { run with store := run.store.completeStop.2, writer := .absent, joining := false }
  := by
  have hpending := (h.exited hwriter).2
  refine { h with
      current := ?_, prepared := trivial, writing := ?_, stopping := ?_, absent := ?_, exited := ?_
      covered := ?_ }
  · rintro c ⟨⟩
  · rintro c ⟨⟩
  · rintro ⟨⟩
  · intro _
    exact ⟨rfl, hpending⟩
  · rintro ⟨⟩
  · intro c hc
    have := h.covered c hc
    rwa [hwriter] at this

/-- Every step keeps the invariant. -/
theorem step_inv (h : run.Inv) (hstep : run.Step label run') :
  run'.Inv
  := by
  obtain ⟨-, hstep⟩ := hstep
  cases label with
  | start created result =>
    obtain ⟨-, hresult, rfl⟩ := hstep
    rw [← hresult]
    apply h.start created
  | submit checkpoint result =>
    obtain ⟨hjoining, hresult, rfl⟩ := hstep
    obtain heq | ⟨heq, hstarted, hnewer⟩ := submit_cases run.store checkpoint
    · rw [heq] at hresult
      rw [← hresult]
      exact h
    · rw [heq] at hresult ⊢
      rw [← hresult]
      apply h.accept hjoining hstarted hnewer
  | flush result =>
    obtain ⟨-, -, rfl⟩ := hstep
    exact h
  | stop result =>
    obtain ⟨-, -, rfl⟩ := hstep
    exact h
  | requestStop =>
    obtain ⟨-, store, hstore, rfl⟩ := hstep
    rw [CheckpointStore.requestStop] at hstore
    split at hstore
    · cases hstore
    · cases hstore
      apply h.requestStop
  | completeStop result =>
    obtain ⟨-, hwriter, -, rfl⟩ := hstep
    apply h.completeStop hwriter
  | take checkpoint =>
    obtain ⟨hwriter, hpending, rfl⟩ := hstep
    apply h.take hpending hwriter
  | exit =>
    obtain ⟨hwriter, hstopping, hpending, rfl⟩ := hstep
    apply h.exit hwriter (h.stopping hstopping) hpending
  | commit outcome =>
    cases hstep
    apply h.commit outcome
  | finish checkpoint committed =>
    obtain ⟨hwriter, rfl⟩ := hstep
    apply h.finish hwriter
  | crash =>
    cases hstep
    exact { h with }

/-! ### Nothing gets older -/

/-- The second state comes no earlier: neither the file nor the counters get older. -/
structure Grows (run run' : StoreRun) : Prop where
  path : fileGeneration run.disk.path ≤ fileGeneration run'.disk.path
  submitted : run.store.lastSubmittedGeneration ≤ run'.store.lastSubmittedGeneration
  committed : run.store.lastCommittedGeneration ≤ run'.store.lastCommittedGeneration

theorem Grows.refl (run : StoreRun) : run.Grows run :=
  ⟨UInt64.le_refl _, UInt64.le_refl _, UInt64.le_refl _⟩

theorem Grows.trans {run'' : StoreRun} (h : run.Grows run') (h' : run'.Grows run'') :
  run.Grows run''
  where
  path := UInt64.le_trans h.path h'.path
  submitted := UInt64.le_trans h.submitted h'.submitted
  committed := UInt64.le_trans h.committed h'.committed

/-- The writer reports a commit only when the file at the path is the one it was to write. -/
theorem Inv.encodes_of_report (h : run.Inv) {checkpoint : ServerCheckpoint}
    (hwriter : run.writer = .report checkpoint true) :
  Encodes checkpoint run.disk.path
  := by
  have := h.prepared
  rwa [hwriter] at this

theorem step_grows (h : run.Inv) (hstep : run.Step label run') :
  run.Grows run'
  := by
  obtain ⟨-, hstep⟩ := hstep
  cases label with
  | start created result =>
    obtain ⟨-, -, rfl⟩ := hstep
    obtain heq | ⟨heq, -, -⟩ := start_cases run.store created <;> rw [heq] <;>
      exact ⟨UInt64.le_refl _, UInt64.le_refl _, UInt64.le_refl _⟩
  | submit checkpoint result =>
    obtain ⟨-, hresult, rfl⟩ := hstep
    obtain heq | ⟨heq, -, hnewer⟩ := submit_cases run.store checkpoint
    · rw [heq] at hresult
      rw [← hresult]
      apply Grows.refl run
    · rw [heq] at hresult ⊢
      rw [← hresult]
      exact ⟨UInt64.le_refl _, UInt64.le_of_lt hnewer, UInt64.le_refl _⟩
  | flush result =>
    obtain ⟨-, -, rfl⟩ := hstep
    apply Grows.refl _
  | stop result =>
    obtain ⟨-, -, rfl⟩ := hstep
    apply Grows.refl _
  | requestStop =>
    obtain ⟨-, store, hstore, rfl⟩ := hstep
    rw [CheckpointStore.requestStop] at hstore
    split at hstore
    · cases hstore
    · cases hstore
      exact ⟨UInt64.le_refl _, UInt64.le_refl _, UInt64.le_refl _⟩
  | completeStop result =>
    obtain ⟨-, -, -, rfl⟩ := hstep
    exact ⟨UInt64.le_refl _, UInt64.le_refl _, UInt64.le_refl _⟩
  | take checkpoint =>
    obtain ⟨-, -, rfl⟩ := hstep
    exact ⟨UInt64.le_refl _, UInt64.le_refl _, UInt64.le_refl _⟩
  | exit =>
    obtain ⟨-, -, -, rfl⟩ := hstep
    exact ⟨UInt64.le_refl _, UInt64.le_refl _, UInt64.le_refl _⟩
  | commit outcome =>
    cases hstep
    exact ⟨h.commit_path outcome, UInt64.le_refl _, UInt64.le_refl _⟩
  | finish checkpoint committed =>
    obtain ⟨hwriter, rfl⟩ := hstep
    cases committed with
    | true =>
      refine ⟨UInt64.le_refl _, UInt64.le_refl _, ?_⟩
      change _ ≤ checkpoint.generation
      rw [← (h.encodes_of_report hwriter).fileGeneration_eq]
      apply h.committed_le
    | false => exact ⟨UInt64.le_refl _, UInt64.le_refl _, UInt64.le_refl _⟩
  | crash =>
    cases hstep
    exact ⟨UInt64.le_refl _, UInt64.le_refl _, UInt64.le_refl _⟩

/-! ### Runs -/

/-- Every state of a run satisfies the invariant. -/
theorem inv_of_reachable (h : system.Reachable run) :
  run.Inv
  := by
  apply h.invariant
  · intro s hs
    apply inv_of_loaded hs
  · intro s label s' hs _ hstep
    apply step_inv hs hstep

/-- Nothing gets older in a run. -/
theorem leads_grows (h : run.Inv) (hleads : system.Leads run run') :
  run.Grows run'
  := by
  suffices run'.Inv ∧ run.Grows run' from this.2
  apply hleads.preserves (I := fun later => later.Inv ∧ run.Grows later)
  · intro later label later' ⟨hinv, hgrows⟩ hstep
    exact ⟨step_inv hinv hstep, hgrows.trans (step_grows hinv hstep)⟩
  · exact ⟨h, Grows.refl run⟩

/-- The file at the path is the last accepted checkpoint, or the one that was found. -/
def HoldsLast (run : StoreRun) : Prop :=
  match run.accepted.getLast? with
  | none => run.disk.path = run.found
  | some checkpoint => Encodes checkpoint run.disk.path

/-- When everything submitted is committed, the file is the last accepted checkpoint: no
other accepted checkpoint, nor the file that was found, has its generation. -/
theorem Inv.holdsLast (h : run.Inv)
    (hdone : run.store.lastSubmittedGeneration = run.store.lastCommittedGeneration) :
  run.HoldsLast
  := by
  have hgeneration : run.lastGeneration = fileGeneration run.disk.path := by
    rw [← h.submitted]
    apply UInt64.le_antisymm
    · rw [hdone]
      apply h.committed_le
    · apply h.path_le
  rw [lastGeneration] at hgeneration
  rw [HoldsLast]
  rcases List.eq_nil_or_concat run.accepted with hnil | ⟨l, last, heq⟩
  · rw [hnil]
    rcases h.path with hfound | ⟨c, hc, -⟩
    · exact hfound
    · rw [hnil] at hc
      cases hc
  · have hlast : run.accepted.getLast? = some last := by
      rw [heq, List.concat_eq_append, List.getLast?_concat]
    rw [hlast] at hgeneration ⊢
    dsimp only at hgeneration ⊢
    rcases h.path with hfound | ⟨c, hc, hencodes⟩
    · have hlt := h.found_lt last (List.mem_of_getLast? hlast)
      rw [← hfound, ← hgeneration] at hlt
      exact absurd hlt (UInt64.lt_irrefl _)
    · rw [hencodes.fileGeneration_eq] at hgeneration
      have hsorted := h.sorted
      rw [heq, List.concat_eq_append] at hc hsorted
      rcases List.mem_append.mp hc with hmem | hmem
      · have hlt := (List.pairwise_append.mp hsorted).2.2 c hmem last List.mem_cons_self
        rw [hgeneration] at hlt
        exact absurd hlt (UInt64.lt_irrefl _)
      · rw [List.mem_singleton] at hmem
        rwa [← hmem]

/-- A `flush` or `stop` that succeeds finds everything submitted committed. -/
theorem step_confirms (hstep : run.Step label run') (hlabel : label.Confirms) :
  run.store.lastSubmittedGeneration = run.store.lastCommittedGeneration
    ∧ run'.accepted = run.accepted ∧ run'.disk = run.disk ∧ run'.found = run.found
  := by
  obtain ⟨-, hstep⟩ := hstep
  cases label with
  | flush result =>
    cases hlabel
    obtain ⟨-, hflush, rfl⟩ := hstep
    refine ⟨?_, rfl, rfl, rfl⟩
    rw [CheckpointStore.flush] at hflush
    split at hflush
    · cases hflush
    split at hflush
    · cases hflush
    · simpa using hflush
  | stop result =>
    cases hlabel
    obtain ⟨-, hstop, rfl⟩ := hstep
    refine ⟨?_, rfl, rfl, rfl⟩
    rw [CheckpointStore.requestStop] at hstop
    split at hstop
    · simp only [Sum.inl.injEq, Bool.and_eq_true, beq_iff_eq] at hstop
      apply hstop.2
    · cases hstop
  | completeStop result =>
    cases hlabel
    obtain ⟨-, -, hresult, rfl⟩ := hstep
    refine ⟨?_, rfl, rfl, rfl⟩
    simpa [CheckpointStore.completeStop] using hresult
  | _ => cases hlabel

/-- What became of the accepted checkpoints: each of them was committed, failed in its commit,
was replaced by a newer accepted one while it waited, or, when the store is not idle, waits or
is being written. -/
def Accounted (run : StoreRun) : Prop :=
  ∀ c ∈ run.accepted, c ∈ run.committed ∨ c ∈ run.failed
    ∨ (∃ c' ∈ run.accepted, (c, c') ∈ run.replaced ∧ c.generation < c'.generation)
    ∨ run.store.idle = false
      ∧ (run.store.pendingCheckpoint = some c ∨ run.writer.current = some c)

theorem Inv.accounted (h : run.Inv) : run.Accounted := by
  intro c hc
  rcases h.covered c hc with hc | hc | ⟨c', hc⟩ | hc | hc
  · exact .inl hc
  · exact .inr (.inl hc)
  · obtain ⟨hmem, hlt⟩ := h.replaced c c' hc
    exact .inr (.inr (.inl ⟨c', hmem, hc, hlt⟩))
  · refine .inr (.inr (.inr ⟨?_, .inl hc⟩))
    simp [idle, hc]
  · refine .inr (.inr (.inr ⟨?_, .inr hc⟩))
    simp [idle, h.writing c hc]

/-- After a `flush` or a `stop` that succeeds the file is the last accepted checkpoint. -/
theorem Inv.holdsLast_of_confirms {label : Label} (h : run.Inv) (hstep : run.Step label run')
    (hlabel : label.Confirms) :
  run'.HoldsLast
  := by
  obtain ⟨hdone, haccepted, hdisk, hfound⟩ := step_confirms hstep hlabel
  have hholds := h.holdsLast hdone
  rw [HoldsLast] at hholds ⊢
  rwa [haccepted, hdisk, hfound]

/-- A store that was loaded is atomic and honest in every run: the file is the one that was
found or a whole accepted checkpoint, nothing gets older, no accepted checkpoint is lost
without a newer one or a failure, and `flush` and `stop` succeed only when the file is the
last accepted checkpoint. -/
theorem atomic_of_reachable (h : system.Reachable run) :
  (run.disk.path = run.found ∨ ∃ c ∈ run.accepted, Encodes c run.disk.path)
    ∧ run.store.lastCommittedGeneration ≤ run.store.lastSubmittedGeneration
    ∧ run.Accounted
    ∧ (∀ later, system.Leads run later → run.Grows later)
    ∧ (∀ label run', run.Step label run' → label.Confirms → run'.HoldsLast)
  := by
  have hinv := inv_of_reachable h
  refine ⟨hinv.path, hinv.committed_le_submitted, hinv.accounted, ?_, ?_⟩
  · intro later hleads
    apply leads_grows hinv hleads
  · intro label run' hstep hlabel
    apply hinv.holdsLast_of_confirms hstep hlabel

/-! ### A commit that succeeds -/

/-- What every successful system call of a commit preserves holds when the checkpoint is at the
path. -/
theorem commit_induction {P : CheckpointStore.Writer → Disk → Prop} {data : Bytes}
    (hstep : ∀ writer disk writer' disk',
      commitStep (.done data.length) disk writer = (writer', disk') →
        P writer disk → P writer' disk')
    {checkpoint : ServerCheckpoint} {disk : Disk}
    (hencode : CheckpointCodec.encode checkpoint [] = (.success, data))
    (h : P (.encode checkpoint) disk) :
  P (.report checkpoint true) ⟨some data, none⟩
  := by
  have hopen : P (.openFile checkpoint data) disk := by
    apply hstep (.encode checkpoint) disk _ _ _ h
    simp [commitStep, hencode]
  have hwrite := hstep _ _ _ ⟨disk.path, some []⟩ rfl hopen
  have hsync : P (.syncFile checkpoint data) ⟨disk.path, some data⟩ := by
    cases data with
    | nil => apply hstep _ _ _ _ rfl hwrite
    | cons b l =>
      have hall : commitStep (.done (b :: l).length) ⟨disk.path, some []⟩
          (.writeFile checkpoint (b :: l) 0)
          = (.writeFile checkpoint (b :: l) (b :: l).length, ⟨disk.path, some (b :: l)⟩) := by
        simp [commitStep]
      have hend : commitStep (.done (b :: l).length) ⟨disk.path, some (b :: l)⟩
          (.writeFile checkpoint (b :: l) (b :: l).length)
          = (.syncFile checkpoint (b :: l), ⟨disk.path, some (b :: l)⟩) :=
        if_pos (Nat.le_refl _)
      apply hstep _ _ _ _ hend (hstep _ _ _ _ hall hwrite)
  have hrename := hstep _ _ _ _ rfl (hstep _ _ _ _ rfl hsync)
  have hdirectory := hstep _ _ _ _ rfl hrename
  apply hstep _ _ _ _ rfl (hstep _ _ _ _ rfl (hstep _ _ _ _ rfl hdirectory))

/-- A commit whose system calls all succeed puts the checkpoint at the path. -/
theorem commit_leads {checkpoint : ServerCheckpoint} {data : Bytes}
    (hcrashed : run.crashed = false) (hwriter : run.writer = .encode checkpoint)
    (hencode : CheckpointCodec.encode checkpoint [] = (.success, data)) :
  system.Leads run { run with writer := .report checkpoint true, disk := ⟨some data, none⟩ }
  := by
  apply commit_induction (P := fun writer disk => system.Leads run { run with writer, disk })
    _ hencode
  · rw [← hwriter]
    exact .refl
  · intro writer disk writer' disk' heq hleads
    apply hleads.step (ℓ := .commit (.done data.length))
    refine ⟨hcrashed, ?_⟩
    change _ = { run with
      writer := (commitStep (.done data.length) disk writer).1
      disk := (commitStep (.done data.length) disk writer).2 }
    rw [heq]

/-- A world of that generation: a room with a member that has a session. -/
def world (generation : UInt64) : ServerCheckpoint := { CheckpointCodec.small with generation }

/-- A store that found no file, before it starts. -/
def unstarted : StoreRun where
  store := CheckpointStore.new "world"
  disk := ⟨none, none⟩
  writer := .absent
  joining := false
  crashed := false
  found := none
  accepted := []
  replaced := []
  committed := []
  failed := []

/-- The store after it has accepted three worlds: the first was replaced while it waited, the
commit of the second failed, and the third is in the file. -/
def saved : StoreRun :=
  { unstarted with
    store := { CheckpointStore.new "world" with
      started := true
      lastSubmittedGeneration := 3
      lastCommittedGeneration := 3
      lastFailedGeneration := 2 }
    disk := ⟨some (CheckpointCodec.encode (world 3) []).2, none⟩
    writer := .waiting
    accepted := [world 1, world 2, world 3]
    replaced := [(world 1, world 2)]
    committed := [world 3]
    failed := [world 2] }

theorem saved_reachable :
  system.Reachable saved
  := by
  have hinit : system.Reachable unstarted :=
    .initial ⟨"world", true, [], true, .notFound, rfl, .inr rfl, rfl, rfl, rfl, rfl, rfl, rfl, rfl,
      rfl⟩
  have hstart := hinit.step (ℓ := Label.start true true) trivial ⟨rfl, rfl, rfl, rfl⟩
  have hsubmit₁ := hstart.step (ℓ := Label.submit (world 1) true) trivial ⟨rfl, rfl, rfl, rfl⟩
  have hsubmit₂ := hsubmit₁.step (ℓ := Label.submit (world 2) true) trivial ⟨rfl, rfl, rfl, rfl⟩
  have htake₂ := hsubmit₂.step (ℓ := Label.take (world 2)) trivial ⟨rfl, rfl, rfl, rfl⟩
  have hfail := htake₂.step (ℓ := Label.commit .failed) trivial ⟨rfl, rfl⟩
  have hfailed := hfail.step (ℓ := Label.finish (world 2) false) trivial ⟨rfl, rfl, rfl⟩
  have hsubmit₃ := hfailed.step (ℓ := Label.submit (world 3) true) trivial ⟨rfl, rfl, rfl, rfl⟩
  have htake₃ := hsubmit₃.step (ℓ := Label.take (world 3)) trivial ⟨rfl, rfl, rfl, rfl⟩
  have hencode : CheckpointCodec.encode (world 3) []
      = (.success, (CheckpointCodec.encode (world 3) []).2) :=
    Prod.ext (by decide +kernel) rfl
  have hcommit := System.Reachable.leads htake₃ (commit_leads rfl rfl hencode)
  apply hcommit.step (ℓ := Label.finish (world 3) true) trivial ⟨rfl, rfl, rfl⟩

theorem saved_atomic :
  system.Reachable saved ∧ saved.Accounted ∧ saved.HoldsLast
  := by
  have h := atomic_of_reachable saved_reachable
  use saved_reachable, h.2.2.1
  apply h.2.2.2.2 (.flush true) saved ⟨rfl, rfl, rfl, rfl⟩ rfl

end StoreRun

end RoomServer
