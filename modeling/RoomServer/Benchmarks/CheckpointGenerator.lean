import Mathlib.Data.List.TakeWhile
import RoomServer.Checkpoint.Reload

/-!
# The checkpoint generator

The generator writes the checkpoint of a server with a number of empty rooms, through the store
of the server, and reads it back to check it.  It refuses to overwrite a file.

The numbers on its command line are read with `strtoull`, which takes more than digits: it skips
spaces in front of the number, and a number with a minus sign is negated modulo 2^64.
-/

namespace RoomServer

namespace CheckpointGenerator

/-! ### The numbers -/

def isSpace (byte : UInt8) : Bool := byte == 32 || (9 ≤ byte && byte ≤ 13)

def isDigit (byte : UInt8) : Bool := 48 ≤ byte && byte ≤ 57

/-- The number that the digits write. -/
def decimal (digits : Bytes) : Nat :=
  digits.foldl (fun n digit => 10 * n + (digit.toNat - 48)) 0

/-- The sign in front of a number, and whether it is a minus. -/
def takeSign : Bytes → Bool × Bytes
  | 45 :: rest => (true, rest)
  | 43 :: rest => (false, rest)
  | rest => (false, rest)

/-- The number at the front of the text, in base 10, whether it is out of range, and the rest of
the text, which is the whole of it when there is no number. -/
def strtoull (text : Bytes) : UInt64 × Bool × Bytes :=
  let (negative, rest) := takeSign (text.dropWhile isSpace)
  let digits := rest.takeWhile isDigit
  if digits.isEmpty then
    (0, false, text)
  else if 2 ^ 64 ≤ decimal digits then
    (18446744073709551615, true, rest.dropWhile isDigit)
  else if negative then
    (0 - UInt64.ofNat (decimal digits), false, rest.dropWhile isDigit)
  else
    (UInt64.ofNat (decimal digits), false, rest.dropWhile isDigit)

def parsePositiveU64 (text : Bytes) : Option UInt64 :=
  if text.isEmpty then
    none
  else
    let (parsed, outOfRange, rest) := strtoull text
    if outOfRange || rest.length == text.length || !rest.isEmpty || parsed == 0 then
      none
    else
      some parsed

/-! ### The checkpoint -/

def generatedRoom (roomCapacity : UInt64) (i : Nat) : RoomCheckpoint where
  roomId := UInt32.ofNat (i + 1)
  capacity := roomCapacity
  nextPlayerId := 1
  state := .waiting
  tickId := 0
  members := []
  gameStates := []

def generatedCheckpoint (roomCount roomCapacity : UInt64) : ServerCheckpoint where
  generation := 1
  rooms := (List.range roomCount.toNat).map (generatedRoom roomCapacity)
  sessions := []

def verifyCheckpoint (checkpoint : ServerCheckpoint) (roomCount roomCapacity : UInt64) : Bool :=
  if checkpoint.generation != 1 || checkpoint.rooms.length != roomCount.toNat
      || !checkpoint.sessions.isEmpty then
    false
  else
    checkpoint.rooms.zipIdx.all fun (room, i) =>
      room.roomId == UInt32.ofNat (i + 1) && room.capacity == roomCapacity
        && room.nextPlayerId == 1 && room.state == .waiting && room.tickId == 0
        && room.members.isEmpty && room.gameStates.isEmpty

/-! ### The program -/

/-- Where the program is: before the calls of the store, with what `stop` is to be followed by,
in the wait for the writer, before it reads the file, or at the end with the exit code. -/
inductive Pc where
  | start
  | submit
  | flush
  | stop (flushed : Bool)
  | join (flushed : Bool)
  | verify
  | exited (code : Nat)

end CheckpointGenerator

open CheckpointGenerator in
/-- The program behind its checks of the command line and of the files. -/
structure CheckpointGenerator where
  path : String
  roomCount : UInt64
  roomCapacity : UInt64
  run : StoreRun
  pc : Pc

namespace CheckpointGenerator

/-- The program with the texts of its command line; it wants two positive numbers, no more rooms
than there are ids, and neither of the two files. -/
def new (path : String) (roomCountText roomCapacityText : Bytes) (disk : Disk) :
    Option CheckpointGenerator :=
  match parsePositiveU64 roomCountText, parsePositiveU64 roomCapacityText with
  | some roomCount, some roomCapacity =>
    if roomCount > 4294967295 then
      none
    else if disk.path.isSome || disk.temporary.isSome then
      none
    else
      some {
        path, roomCount, roomCapacity
        run := ⟨CheckpointStore.new path, disk, .absent, false, false, none, [], [], [], []⟩
        pc := .start }
  | _, _ => none

/-- What happens: the program takes a step, given what the system calls do, or the writer of its
store does. -/
inductive Label where
  | start (created : Bool)
  | submit
  | flush
  | stop
  | joined
  | verify (opens : Bool) (reads : List Outcome) (closes : Bool)
  | writer (label : StoreRun.Label)

/-- The exit code after the file was read. -/
def verdict (generator : CheckpointGenerator) (state : CheckpointStore.Loadstates)
    (checkpoint : ServerCheckpoint) : Nat :=
  if state != .success
      || !verifyCheckpoint checkpoint generator.roomCount generator.roomCapacity then
    1
  else
    0

def Step (generator : CheckpointGenerator) (label : Label) (generator' : CheckpointGenerator) :
    Prop :=
  match label with
  | .start created =>
    generator.pc = .start ∧ ∃ result run, generator.run.Step (.start created result) run
      ∧ generator' = { generator with run, pc := if result then .submit else .exited 1 }
  | .submit =>
    generator.pc = .submit ∧ ∃ result run,
      generator.run.Step
        (.submit (generatedCheckpoint generator.roomCount generator.roomCapacity) result) run
      ∧ generator' = { generator with run, pc := if result then .flush else .stop false }
  | .flush =>
    generator.pc = .flush ∧ ∃ result run, generator.run.Step (.flush result) run
      ∧ generator' = { generator with run, pc := .stop result }
  | .stop =>
    ∃ flushed, generator.pc = .stop flushed
      ∧ ((∃ result run, generator.run.Step (.stop result) run
          ∧ generator' = { generator with
            run, pc := if flushed && result then .verify else .exited 1 })
        ∨ ∃ run, generator.run.Step .requestStop run
          ∧ generator' = { generator with run, pc := .join flushed })
  | .joined =>
    ∃ flushed, generator.pc = .join flushed
      ∧ ∃ result run, generator.run.Step (.completeStop result) run
        ∧ generator' = { generator with
          run, pc := if flushed && result then .verify else .exited 1 }
  | .verify opens reads closes =>
    generator.pc = .verify ∧ ∃ state store,
      (CheckpointStore.new generator.path).load generator.run.disk opens reads closes
        = some (state, store)
      ∧ generator' = { generator with
        pc := .exited (generator.verdict state
          (PersistenceService.fileCheckpoint generator.run.disk.path)) }
  | .writer label =>
    ∃ run, PersistenceService.OfWriter label ∧ generator.run.Step label run
      ∧ generator' = { generator with run }

def system : System CheckpointGenerator Label where
  Initial generator := ∃ path roomCountText roomCapacityText disk,
    new path roomCountText roomCapacityText disk = some generator
  Step := Step

/-! ### The numbers that are accepted -/

theorem takeSign_cases (text : Bytes) :
  (∃ rest, text = 45 :: rest ∧ takeSign text = (true, rest))
    ∨ (∃ rest, text = 43 :: rest ∧ takeSign text = (false, rest))
    ∨ takeSign text = (false, text)
  := by
  rw [takeSign.eq_def]
  split
  · next rest => exact .inl ⟨rest, rfl, rfl⟩
  · next rest => exact .inr (.inl ⟨rest, rfl, rfl⟩)
  · exact .inr (.inr rfl)

/-- The text of a number: spaces, a sign or none, and digits that write a number below 2^64. -/
structure Numeral (text : Bytes) (negative : Bool) (n : Nat) : Prop where
  shape : ∃ spaces sign digits, text = spaces ++ sign ++ digits
    ∧ (∀ byte ∈ spaces, isSpace byte = true)
    ∧ (if negative then sign = [45] else sign = [] ∨ sign = [43])
    ∧ digits ≠ [] ∧ (∀ byte ∈ digits, isDigit byte = true) ∧ decimal digits = n
  lt : n < 2 ^ 64

theorem not_isSpace_of_isDigit {byte : UInt8} (h : isDigit byte = true) :
  isSpace byte = false
  := by
  simp only [isDigit, Bool.and_eq_true, decide_eq_true_eq, UInt8.le_iff_toNat_le] at h
  simp only [isSpace, Bool.or_eq_false_iff, Bool.and_eq_false_iff, beq_eq_false_iff_ne,
    decide_eq_false_iff_not, UInt8.le_iff_toNat_le, ne_eq, ← UInt8.toNat_inj]
  simp only [UInt8.toNat_ofNat] at h ⊢
  omega

/-- What `strtoull` makes of a numeral. -/
theorem strtoull_of_numeral {text : Bytes} {negative : Bool} {n : Nat}
    (h : Numeral text negative n) :
  strtoull text
    = (if negative then 0 - UInt64.ofNat n else UInt64.ofNat n, false, [])
  := by
  obtain ⟨⟨spaces, sign, digits, rfl, hspaces, hsign, hdigits, hall, hn⟩, hlt⟩ := h
  obtain ⟨digit, digits, rfl⟩ := List.exists_cons_of_ne_nil hdigits
  have hdigit := hall digit List.mem_cons_self
  have hskip : (spaces ++ sign ++ digit :: digits).dropWhile isSpace = sign ++ digit :: digits := by
    rw [List.append_assoc, List.dropWhile_append_of_pos hspaces]
    split at hsign
    · rw [hsign]
      rfl
    · rcases hsign with rfl | rfl
      · rw [List.nil_append, List.dropWhile_cons_of_neg]
        rw [not_isSpace_of_isDigit hdigit]
        simp
      · rfl
  have htake : takeSign (sign ++ digit :: digits) = (negative, digit :: digits) := by
    cases negative with
    | true =>
      rw [hsign]
      rfl
    | false =>
      rcases hsign with rfl | rfl
      · rw [List.nil_append, takeSign]
        · rintro rest ⟨⟩
          cases hdigit
        · rintro rest ⟨⟩
          cases hdigit
      · rfl
  have htakeWhile : (digit :: digits).takeWhile isDigit = digit :: digits := by
    rw [← List.append_nil (digit :: digits), List.takeWhile_append_of_pos hall]
    simp
  have hdropWhile : (digit :: digits).dropWhile isDigit = [] := by
    rw [← List.append_nil (digit :: digits), List.dropWhile_append_of_pos hall]
    rfl
  rw [strtoull, hskip, htake]
  dsimp only
  rw [htakeWhile, hdropWhile, hn, if_neg (by simp), if_neg (by omega)]
  cases negative <;> rfl

/-- What `takeSign` takes is a sign or nothing. -/
theorem sign_of_takeSign {text rest : Bytes} {negative : Bool}
    (h : takeSign text = (negative, rest)) :
  ∃ sign, text = sign ++ rest ∧ if negative then sign = [45] else sign = [] ∨ sign = [43]
  := by
  obtain ⟨rest', htext, heq⟩ | ⟨rest', htext, heq⟩ | heq := takeSign_cases text
  · rw [h, Prod.mk.injEq] at heq
    obtain ⟨rfl, rfl⟩ := heq
    exact ⟨[45], htext, rfl⟩
  · rw [h, Prod.mk.injEq] at heq
    obtain ⟨rfl, rfl⟩ := heq
    exact ⟨[43], htext, .inr rfl⟩
  · rw [h, Prod.mk.injEq] at heq
    obtain ⟨rfl, rfl⟩ := heq
    exact ⟨[], rfl, .inl rfl⟩

/-- What is accepted is a numeral, with the value that is returned. -/
theorem numeral_of_parsePositiveU64 {text : Bytes} {value : UInt64}
    (h : parsePositiveU64 text = some value) :
  ∃ negative n, Numeral text negative n ∧ value ≠ 0
    ∧ value = if negative then 0 - UInt64.ofNat n else UInt64.ofNat n
  := by
  rw [parsePositiveU64] at h
  split at h
  · cases h
  rw [strtoull] at h
  generalize htaken : takeSign (text.dropWhile isSpace) = taken at h
  obtain ⟨negative, rest⟩ := taken
  obtain ⟨sign, hsign, hnegative⟩ := sign_of_takeSign htaken
  dsimp only at h
  split at h
  · simp at h
  next hne =>
  split at h
  · simp at h
  next hlt =>
  have hvalue : ∃ parsed : UInt64,
      parsed = (if negative then 0 - UInt64.ofNat (decimal (rest.takeWhile isDigit))
        else UInt64.ofNat (decimal (rest.takeWhile isDigit)))
      ∧ rest.dropWhile isDigit = [] ∧ parsed ≠ 0 ∧ parsed = value := by
    cases negative <;>
      · simp only [Bool.false_eq_true, if_true, if_false, Option.ite_none_left_eq_some,
          Bool.or_eq_true, beq_iff_eq, not_or, Option.some.injEq] at h
        obtain ⟨⟨⟨-, hend⟩, hne_zero⟩, hvalue⟩ := h
        exact ⟨_, rfl, by simpa using hend, hne_zero, hvalue⟩
  obtain ⟨parsed, hparsed, hend, hne_zero, rfl⟩ := hvalue
  refine ⟨negative, decimal (rest.takeWhile isDigit),
    ⟨⟨text.takeWhile isSpace, sign, rest.takeWhile isDigit, ?_, fun _ => List.mem_takeWhile_imp,
      hnegative, ?_, fun _ => List.mem_takeWhile_imp, rfl⟩, by omega⟩, hne_zero, hparsed⟩
  · have hrest := @List.takeWhile_append_dropWhile _ isDigit rest
    rw [hend, List.append_nil] at hrest
    rw [hrest, List.append_assoc, ← hsign, List.takeWhile_append_dropWhile]
  · simpa using hne

/-- The texts that are accepted are the numerals whose value is not 0; the value of a numeral
with a minus is taken modulo 2^64. -/
theorem parsePositiveU64_eq_some_iff {text : Bytes} {value : UInt64} :
  parsePositiveU64 text = some value
    ↔ ∃ negative n, Numeral text negative n ∧ value ≠ 0
      ∧ value = if negative then 0 - UInt64.ofNat n else UInt64.ofNat n
  := by
  constructor
  · apply numeral_of_parsePositiveU64
  · rintro ⟨negative, n, hnumeral, hne, heq⟩
    have hstrtoull := strtoull_of_numeral hnumeral
    obtain ⟨⟨spaces, sign, digits, htext, -, -, hdigits, -, -⟩, -⟩ := hnumeral
    have hlength : text.length ≠ 0 := by
      rw [htext, List.length_append]
      have hpos := List.length_pos_iff.mpr hdigits
      omega
    have hempty : text.isEmpty = false := by
      rw [List.isEmpty_eq_false_iff]
      rintro rfl
      exact hlength rfl
    rw [parsePositiveU64, hempty, hstrtoull, ← heq]
    simp [hne, hlength.symm]

/-! ### The checkpoint that is generated -/

/-- The ids of the rooms are the numbers behind their places. -/
theorem toNat_roomId {i : Nat} (h : i < 4294967295) :
  (UInt32.ofNat (i + 1)).toNat = i + 1
  := by
  rw [UInt32.toNat_ofNat']
  apply Nat.mod_eq_of_lt
  omega

/-- Only the generated checkpoint passes the check. -/
theorem verifyCheckpoint_iff {checkpoint : ServerCheckpoint} {roomCount roomCapacity : UInt64} :
  verifyCheckpoint checkpoint roomCount roomCapacity = true
    ↔ checkpoint = generatedCheckpoint roomCount roomCapacity
  := by
  obtain ⟨generation, rooms, sessions⟩ := checkpoint
  rw [verifyCheckpoint, Bool.ite_eq_true_distrib]
  simp only [Bool.or_eq_true, bne_iff_ne, ne_eq, Bool.not_eq_true', List.isEmpty_eq_false_iff,
    Bool.and_eq_true, List.all_eq_true, beq_iff_eq, List.isEmpty_iff, Prod.forall,
    List.mem_zipIdx_iff_getElem?, generatedCheckpoint, ServerCheckpoint.mk.injEq,
    Bool.false_eq_true, if_false_left, not_or, not_not]
  constructor
  · rintro ⟨⟨⟨hgeneration, hlength⟩, hsessions⟩, hall⟩
    refine ⟨hgeneration, ?_, hsessions⟩
    apply List.ext_getElem
    · rw [hlength, List.length_map, List.length_range]
    · intro i hi _
      obtain ⟨⟨⟨⟨⟨⟨hid, hcapacity⟩, hnext⟩, hstate⟩, htick⟩, hmembers⟩, hgame⟩ :=
        hall rooms[i] i (List.getElem?_eq_getElem hi)
      rw [List.getElem_map, List.getElem_range, generatedRoom, ← hid, ← hcapacity, ← hnext,
        ← hstate, ← htick, ← hmembers, ← hgame]
  · rintro ⟨hgeneration, rfl, hsessions⟩
    refine ⟨⟨⟨hgeneration, by simp⟩, hsessions⟩, ?_⟩
    intro room i hroom
    rw [List.getElem?_map, Option.map_eq_some_iff] at hroom
    obtain ⟨j, hj, rfl⟩ := hroom
    obtain ⟨hi, rfl⟩ := List.getElem?_eq_some_iff.mp hj
    simp [generatedRoom]

/-- A service to which the rooms were added one after the other. -/
def generatedService (reconnectTimeout : Int) (roomCapacity : UInt64) (n : Nat) : RoomService :=
  (List.range n).foldl
    (fun service i => (service.addRoom true (UInt32.ofNat (i + 1)) roomCapacity).2)
    (.new reconnectTimeout)

theorem generatedService_succ (reconnectTimeout : Int) (roomCapacity : UInt64) (n : Nat) :
  generatedService reconnectTimeout roomCapacity (n + 1)
    = ((generatedService reconnectTimeout roomCapacity n).addRoom true (UInt32.ofNat (n + 1))
      roomCapacity).2
  := by
  rw [generatedService, List.range_succ, List.foldl_append]
  rfl

theorem generatedService_saveable (reconnectTimeout : Int) (roomCapacity : UInt64) (n : Nat) :
  (generatedService reconnectTimeout roomCapacity n).Saveable
  := by
  induction n with
  | zero => apply RoomService.new_saveable
  | succ n ih =>
    rw [generatedService_succ]
    apply ih.addRoom

/-- The service has the rooms with the ids up to their number, and no sessions. -/
theorem lookup_generatedService (reconnectTimeout : Int) (roomCapacity : UInt64) {n : Nat}
    (hn : n ≤ 4294967295) :
  (∀ r, (generatedService reconnectTimeout roomCapacity n).roomManager.rooms.lookup r
      = if 1 ≤ r.toNat ∧ r.toNat ≤ n then some (Room.new r roomCapacity) else none)
    ∧ (generatedService reconnectTimeout roomCapacity n).sessionManager
      = .new reconnectTimeout
  := by
  induction n with
  | zero =>
    refine ⟨fun r => ?_, rfl⟩
    rw [if_neg (by omega)]
    rfl
  | succ n ih =>
    obtain ⟨hlookup, hsessions⟩ := ih (by omega)
    have hid := @toNat_roomId n (by omega)
    have hnew : UInt32.ofNat (n + 1)
        ∉ (generatedService reconnectTimeout roomCapacity n).roomManager.rooms := by
      rw [← AList.lookup_eq_none, hlookup, hid, if_neg (by omega)]
    rw [generatedService_succ, RoomService.addRoom, RoomManager.addRoom]
    simp only [RoomManager.containsRoom, hnew, decide_false, Bool.not_true, Bool.false_eq_true,
      if_false]
    refine ⟨fun r => ?_, hsessions⟩
    rw [AList.lookup_insert_eq_ite, hlookup]
    by_cases hr : r = UInt32.ofNat (n + 1)
    · rw [if_pos hr, ← hr, if_pos]
      rw [hr, hid]
      omega
    · have hne : r.toNat ≠ n + 1 := by
        rwa [← hid, ne_eq, UInt32.toNat_inj]
      have hsame : (1 ≤ r.toNat ∧ r.toNat ≤ n) ↔ (1 ≤ r.toNat ∧ r.toNat ≤ n + 1) := by omega
      rw [if_neg hr]
      simp only [hsame]

/-- The checkpoint of that service is the generated one. -/
theorem checkpoint_generatedService (reconnectTimeout : Int) {roomCount roomCapacity : UInt64}
    (hcount : roomCount.toNat ≤ 4294967295) :
  (generatedService reconnectTimeout roomCapacity roomCount.toNat).checkpoint 1
    = generatedCheckpoint roomCount roomCapacity
  := by
  obtain ⟨hlookup, hsessions⟩ :=
    lookup_generatedService reconnectTimeout roomCapacity hcount
  obtain ⟨L, hL⟩ :=
    (generatedService_saveable reconnectTimeout roomCapacity roomCount.toNat).represents
  rw [RoomService.checkpoint, generatedCheckpoint, hsessions, ServerCheckpoint.mk.injEq]
  refine ⟨rfl, ?_, rfl⟩
  apply List.eq_of_mem_iff_of_pairwise_lt (RoomManager.pairwise_checkpoints hL.valid)
  · rw [List.pairwise_map]
    apply List.pairwise_lt_range.imp_of_mem
    intro i j hi hj hlt
    rw [List.mem_range] at hi hj
    rw [generatedRoom, generatedRoom, toNat_roomId (by omega), toNat_roomId (by omega)]
    omega
  · intro checkpoint
    rw [RoomManager.mem_checkpoints, List.mem_map]
    simp only [hlookup, Option.ite_none_right_eq_some, List.mem_range]
    constructor
    · rintro ⟨r, room, ⟨hr, heq⟩, rfl⟩
      cases heq
      refine ⟨r.toNat - 1, by omega, ?_⟩
      rw [generatedRoom, Nat.sub_add_cancel hr.1, UInt32.ofNat_toNat]
      rfl
    · rintro ⟨i, hi, rfl⟩
      refine ⟨UInt32.ofNat (i + 1), _, ⟨?_, rfl⟩, rfl⟩
      rw [toNat_roomId (by omega)]
      omega

/-! ### Runs of the generator -/

variable {generator generator' : CheckpointGenerator}

/-- The checkpoint the program is to write. -/
def goal (generator : CheckpointGenerator) : ServerCheckpoint :=
  generatedCheckpoint generator.roomCount generator.roomCapacity

/-- A service with the rooms the program is asked for. -/
def service (generator : CheckpointGenerator) (reconnectTimeout : Int) : RoomService :=
  generatedService reconnectTimeout generator.roomCapacity generator.roomCount.toNat

/-- The program has submitted its checkpoint, and the store has not failed to save it. -/
def Pc.submitted : Pc → Bool
  | .flush => true
  | .stop flushed | .join flushed => flushed
  | _ => false

/-- The store is that of a server, which accepts nothing but the one checkpoint; it is at the
path when the program comes to read it, or ends with success. -/
structure Inv (generator : CheckpointGenerator) : Prop where
  count_le : generator.roomCount.toNat ≤ 4294967295
  run : generator.run.Inv
  valid : generator.run.store.valid = !generator.path.isEmpty
  found : generator.run.found = none
  accepted : ∀ c ∈ generator.run.accepted, c = generator.goal
  submitted : generator.pc.submitted = true →
    generator.run.accepted.getLast? = some generator.goal ∧ generator.path.isEmpty = false
  saved : generator.pc = .verify ∨ generator.pc = .exited 0 →
    generator.run.disk.path ≠ none ∧ generator.path.isEmpty = false

/-- The file is absent or whole. -/
theorem Inv.path (h : generator.Inv) :
  generator.run.disk.path = none ∨ Encodes generator.goal generator.run.disk.path
  := by
  obtain hfound | ⟨c, hc, hencodes⟩ := h.run.path
  · exact .inl (hfound.trans h.found)
  · rw [h.accepted c hc] at hencodes
    exact .inr hencodes

theorem inv_new {path : String} {roomCountText roomCapacityText : Bytes} {disk : Disk}
    (hnew : new path roomCountText roomCapacityText disk = some generator) :
  generator.Inv
  := by
  rw [new] at hnew
  split at hnew
  · next roomCount roomCapacity _ _ =>
    split at hnew
    · cases hnew
    next hcount =>
    split at hnew
    · cases hnew
    next hfiles =>
    cases hnew
    simp only [Bool.or_eq_true, not_or, Bool.not_eq_true, Option.isSome_eq_false_iff,
      Option.isNone_iff_eq_none] at hfiles
    have hpath := hfiles.1
    constructor
    · rw [gt_iff_lt, UInt64.not_lt, UInt64.le_iff_toNat_le] at hcount
      apply hcount
    · constructor
      · apply List.Pairwise.nil
      · intro c hc
        cases hc
      · rfl
      · intro c hc
        cases hc
      · intro c hc
        cases hc
      · exact .inl hpath
      · rw [hpath]
        apply UInt64.le_refl _
      · trivial
      · intro c hc
        cases hc
      · intro hstopping
        cases hstopping
      · intro _
        exact ⟨rfl, rfl⟩
      · intro hwriter
        cases hwriter
      · intro c hc
        cases hc
      · intro c c' hc
        cases hc
    · rfl
    · rfl
    · intro c hc
      cases hc
    · intro hsubmitted
      cases hsubmitted
    · rintro (hpc | hpc) <;> cases hpc
  · cases hnew

/-- The file stays when the store takes a step. -/
theorem Inv.path_stays (h : generator.Inv) {label : StoreRun.Label} {run : StoreRun}
    (hstep : generator.run.Step label run) (hpath : generator.run.disk.path ≠ none) :
  run.disk.path ≠ none
  := by
  obtain hnone | hencodes := h.path
  · exact absurd hnone hpath
  · intro hnone
    have hgrows := (StoreRun.step_grows h.run hstep).path
    rw [hencodes.fileGeneration_eq, hnone] at hgrows
    cases hgrows

/-- A step of the store in which it accepts nothing else. -/
theorem Inv.keep (h : generator.Inv) {label : StoreRun.Label} {run : StoreRun} {pc : Pc}
    (hstep : generator.run.Step label run)
    (hvalid : run.store.valid = generator.run.store.valid)
    (hfound : run.found = generator.run.found)
    (haccepted : run.accepted = generator.run.accepted)
    (hsubmitted : pc.submitted = true → generator.pc.submitted = true)
    (hsaved : pc = .verify ∨ pc = .exited 0 →
      run.disk.path ≠ none ∧ generator.path.isEmpty = false) :
  Inv { generator with run, pc }
  where
  count_le := h.count_le
  run := StoreRun.step_inv h.run hstep
  valid := hvalid.trans h.valid
  found := hfound.trans h.found
  accepted := haccepted ▸ h.accepted
  submitted hpc := haccepted ▸ h.submitted (hsubmitted hpc)
  saved := hsaved

/-- When the store confirms that it has saved everything, the checkpoint is in the file. -/
theorem Inv.path_of_confirms (h : generator.Inv) {label : StoreRun.Label} {run : StoreRun}
    (hstep : generator.run.Step label run) (hlabel : label.Confirms)
    (hpc : generator.pc.submitted = true) :
  run.disk.path ≠ none ∧ generator.path.isEmpty = false
  := by
  obtain ⟨hlast, hpath⟩ := h.submitted hpc
  have hholds := h.run.holdsLast_of_confirms hstep hlabel
  rw [StoreRun.HoldsLast, (StoreRun.step_confirms hstep hlabel).2.1, hlast] at hholds
  obtain ⟨data, -, hdata⟩ := hholds
  exact ⟨by simp [hdata], hpath⟩

theorem Inv.start (h : generator.Inv) {created : Bool}
    (hstep : generator.Step (.start created) generator') :
  generator'.Inv
  := by
  obtain ⟨-, result, run, hrun, rfl⟩ := hstep
  obtain ⟨-, -, -, hrun'⟩ := id hrun
  apply h.keep hrun
  · rw [hrun']
    obtain heq | ⟨heq, -⟩ := StoreRun.start_cases generator.run.store created <;> rw [heq]
  · rw [hrun']
  · rw [hrun']
  · cases result <;> exact fun hpc => absurd hpc (by decide)
  · cases result <;> rintro (hpc | hpc) <;> cases hpc

/-- A store that accepts the checkpoint has a path. -/
theorem valid_of_submit {store : CheckpointStore} {checkpoint : ServerCheckpoint}
    (h : (store.submit checkpoint).1 = true) :
  store.valid = true
  := by
  by_contra hinvalid
  rw [CheckpointStore.submit, if_pos (by simp [hinvalid])] at h
  cases h

/-- The store accepts the checkpoint. -/
theorem Inv.accept (h : generator.Inv) {run : StoreRun} {store : CheckpointStore}
    (hvalid : generator.run.store.valid = true) (hsame : store.valid = generator.run.store.valid)
    (hrun : run = generator.run.accept generator.goal store) (hinv : run.Inv) :
  Inv { generator with run, pc := .flush }
  := by
  constructor
  · exact h.count_le
  · exact hinv
  · dsimp only
    rw [hrun]
    apply hsame.trans h.valid
  · dsimp only
    rw [hrun]
    exact h.found
  · dsimp only
    rw [hrun]
    intro c hc
    obtain hc | hc := List.mem_append.mp hc
    · apply h.accepted c hc
    · apply List.mem_singleton.mp hc
  · intro _
    dsimp only
    rw [hrun]
    use List.getLast?_concat
    have hpath := h.valid
    rw [hvalid] at hpath
    simpa using hpath.symm
  · rintro (hpc | hpc) <;> cases hpc

theorem Inv.submit (h : generator.Inv) (hstep : generator.Step .submit generator') :
  generator'.Inv
  := by
  obtain ⟨-, result, run, hrun, rfl⟩ := hstep
  obtain ⟨-, -, hresult, hrun'⟩ := id hrun
  cases result with
  | false =>
    have hsame : run = generator.run := hrun'
    apply h.keep hrun
    · rw [hsame]
    · rw [hsame]
    · rw [hsame]
    · intro hpc
      cases hpc
    · rintro (hpc | hpc) <;> cases hpc
  | true =>
    obtain heq | ⟨heq, -, -⟩ := StoreRun.submit_cases generator.run.store
      (generatedCheckpoint generator.roomCount generator.roomCapacity)
    · rw [heq] at hresult
      cases hresult
    apply h.accept (valid_of_submit hresult) _ hrun' (StoreRun.step_inv h.run hrun)
    rw [heq]

/-- The call of `stop` ends: the program goes on to read the file if the store has confirmed
both times that the checkpoint is saved. -/
theorem Inv.ended (h : generator.Inv) {label : StoreRun.Label} {run : StoreRun}
    {flushed result : Bool} (hstep : generator.run.Step label run)
    (hvalid : run.store.valid = generator.run.store.valid)
    (hfound : run.found = generator.run.found)
    (haccepted : run.accepted = generator.run.accepted)
    (hconfirms : result = true → label.Confirms)
    (hpc : flushed = true → generator.pc.submitted = true) :
  Inv { generator with run, pc := if flushed && result then .verify else .exited 1 }
  := by
  apply h.keep hstep hvalid hfound haccepted
  · cases flushed <;> cases result <;> exact fun hpc => absurd hpc (by decide)
  · cases flushed <;> cases result
    · rintro (hpc | hpc) <;> cases hpc
    · rintro (hpc | hpc) <;> cases hpc
    · rintro (hpc | hpc) <;> cases hpc
    · intro _
      apply h.path_of_confirms hstep (hconfirms rfl) (hpc rfl)

theorem Inv.stop (h : generator.Inv) (hstep : generator.Step .stop generator') :
  generator'.Inv
  := by
  obtain ⟨flushed, hpc, ⟨result, run, hrun, rfl⟩ | ⟨run, hrun, rfl⟩⟩ := hstep
  · obtain ⟨-, -, -, rfl⟩ := id hrun
    apply h.ended hrun rfl rfl rfl
    · rintro rfl
      rfl
    · rintro rfl
      rw [hpc]
      rfl
  · obtain ⟨-, -, store, hstore, rfl⟩ := id hrun
    apply h.keep hrun _ rfl rfl
    · intro hsubmitted
      rw [hpc]
      exact hsubmitted
    · rintro (hpc | hpc) <;> cases hpc
    · rw [CheckpointStore.requestStop] at hstore
      split at hstore
      · cases hstore
      · cases hstore
        rfl

theorem step_inv (h : generator.Inv) {label : Label} (hstep : generator.Step label generator') :
  generator'.Inv
  := by
  cases label with
  | start created => apply h.start hstep
  | submit => apply h.submit hstep
  | flush =>
    obtain ⟨hpc, result, run, hrun, rfl⟩ := hstep
    obtain ⟨-, -, -, rfl⟩ := id hrun
    apply h.keep hrun rfl rfl rfl
    · intro _
      rw [hpc]
      rfl
    · rintro (hpc | hpc) <;> cases hpc
  | stop => apply h.stop hstep
  | joined =>
    obtain ⟨flushed, hpc, result, run, hrun, rfl⟩ := hstep
    obtain ⟨-, -, -, -, rfl⟩ := id hrun
    apply h.ended hrun rfl rfl rfl
    · rintro rfl
      rfl
    · rintro rfl
      rw [hpc]
      rfl
  | verify opens reads closes =>
    obtain ⟨hpc, state, store, -, rfl⟩ := hstep
    exact { h with
      submitted := by
        intro hsubmitted
        cases hsubmitted
      saved := fun _ => h.saved (.inl hpc) }
  | writer label =>
    obtain ⟨run, hlabel, hrun, rfl⟩ := hstep
    obtain ⟨hsame, -⟩ := PersistenceService.sameOwner_of_writer hlabel hrun
    apply h.keep hrun hsame.valid _ hsame.accepted id
    · intro hsaved
      obtain ⟨hpath, hempty⟩ := h.saved hsaved
      exact ⟨h.path_stays hrun hpath, hempty⟩
    · apply StoreRun.found_of_step hrun

theorem inv_of_reachable (h : system.Reachable generator) : generator.Inv := by
  apply h.invariant
  · rintro _ ⟨path, roomCountText, roomCapacityText, disk, hnew⟩
    apply inv_new hnew
  · intro _ _ _ hinv _ hstep
    apply step_inv hinv hstep

/-- A server can go on from the files the generator leaves. -/
theorem Inv.recoverable (h : generator.Inv) (reconnectTimeout : Int) :
  Recoverable [generator.service reconnectTimeout] generator.run.disk.path
  := by
  have hzero : (1 : UInt64) ≠ 0 := by decide
  have hmax : (1 : UInt64) ≠ PersistenceService.maxGeneration := by decide
  obtain hnone | hencodes := h.path
  · exact .inl hnone
  · exact .inr ⟨generator.goal, hencodes, hzero, hmax, _, List.mem_cons_self,
      (checkpoint_generatedService reconnectTimeout h.count_le).symm⟩

/-- In every run of the generator the file is absent or holds the whole checkpoint; the program
finds it as it is to be, unless a system call fails; and when it ends with success, a server that
loads the file has the rooms that were asked for, empty and waiting, and no sessions. -/
theorem generated_of_reachable (h : system.Reachable generator) :
  (generator.run.disk.path = none ∨ Encodes generator.goal generator.run.disk.path)
    ∧ (∀ opens reads closes generator', generator.Step (.verify opens reads closes) generator' →
      generator'.pc = .exited 0 ∨ generator'.pc = .exited 1 ∧ Faulty opens reads closes)
    ∧ (generator.pc = .exited 0 →
      ∀ reconnectTimeout opens reads closes now state service,
        (PersistenceService.new (.new reconnectTimeout) generator.path generator.run.disk).load
            opens reads closes now = some (state, service) →
        state = .ioError ∧ Faulty opens reads closes
          ∨ state = .restored ∧ ∀ generation, service.roomService.checkpoint generation
            = { generator.goal with generation })
  := by
  have hinv := inv_of_reachable h
  refine ⟨hinv.path, ?_, ?_⟩
  · rintro opens reads closes _ ⟨hpc, state, store, hload, rfl⟩
    obtain ⟨hpath, hempty⟩ := hinv.saved (.inl hpc)
    obtain hnone | hencodes := hinv.path
    · exact absurd hnone hpath
    have hfile : PersistenceService.fileCheckpoint generator.run.disk.path = generator.goal := by
      obtain ⟨data, -, hdata⟩ := id hencodes
      rw [hdata] at hencodes ⊢
      rw [PersistenceService.fileCheckpoint, hencodes.decode]
    dsimp only
    rw [hfile]
    obtain rfl | ⟨rfl, hfaulty⟩ := load_of_encodes hempty hencodes hload
    · left
      rw [verdict, goal, verifyCheckpoint_iff.mpr rfl]
      rfl
    · exact .inr ⟨rfl, hfaulty⟩
  · intro hpc reconnectTimeout opens reads closes now state service hload
    obtain ⟨hpath, hempty⟩ := hinv.saved (.inr hpc)
    have hsaveable := generatedService_saveable reconnectTimeout generator.roomCapacity
      generator.roomCount.toNat
    obtain ⟨hstate, hfaulty, -⟩ | ⟨-, hnone, -⟩ | ⟨hrestored, -, _, _, -, hmem, -, hdata⟩ :=
      PersistenceService.load_of_recoverable
        (by simpa [CheckpointGenerator.service] using hsaveable) hempty
        (hinv.recoverable reconnectTimeout) hload
    · exact .inl ⟨hstate, hfaulty⟩
    · exact absurd hnone hpath
    · refine .inr ⟨hrestored, ?_⟩
      intro generation
      rw [hdata, List.mem_singleton.mp hmem]
      change { RoomService.checkpoint _ 1 with generation } = _
      rw [CheckpointGenerator.service, checkpoint_generatedService _ hinv.count_le]
      rfl

theorem commit_reachable (h : system.Reachable generator)
    (hcrashed : generator.run.crashed = false) {checkpoint : ServerCheckpoint} {data : Bytes}
    (hencode : CheckpointCodec.encode checkpoint [] = (.success, data))
    (hwriter : generator.run.writer = .encode checkpoint) :
  system.Reachable { generator with
    run := { generator.run with writer := .report checkpoint true, disk := ⟨some data, none⟩ } }
  := by
  apply StoreRun.commit_induction (P := fun writer disk =>
    system.Reachable { generator with run := { generator.run with writer, disk } }) _ hencode
  · rw [← hwriter]
    exact h
  · intro writer disk writer' disk' heq hreachable
    apply hreachable.step (ℓ := .writer (.commit (.done data.length))) trivial
    refine ⟨_, trivial, ⟨hcrashed, rfl⟩, ?_⟩
    dsimp only
    rw [heq]

/-- The generator writes one room for two players. -/
theorem one_generated :
  ∃ generator, system.Reachable generator ∧ generator.pc = .exited 0
    ∧ Encodes (generatedCheckpoint 1 2) generator.run.disk.path
  := by
  have hone : parsePositiveU64 [49] = some 1 := by decide +kernel
  have htwo : parsePositiveU64 [50] = some 2 := by decide +kernel
  have hnew : system.Reachable ⟨"world", 1, 2, StoreRun.unstarted, .start⟩ :=
    .initial ⟨"world", [49], [50], ⟨none, none⟩, by rw [new, hone, htwo]; rfl⟩
  have hstart := hnew.step (ℓ := Label.start true) trivial
    ⟨rfl, true, _, ⟨rfl, rfl, rfl, rfl⟩, rfl⟩
  have hsubmit := hstart.step (ℓ := Label.submit) trivial
    ⟨rfl, true, _, ⟨rfl, rfl, rfl, rfl⟩, rfl⟩
  have htake := hsubmit.step
    (ℓ := Label.writer (StoreRun.Label.take (generatedCheckpoint 1 2)))
    trivial ⟨_, trivial, ⟨rfl, rfl, rfl, rfl⟩, rfl⟩
  obtain ⟨data, hencode⟩ : ∃ data,
      CheckpointCodec.encode (generatedCheckpoint 1 2) [] = (.success, data) :=
    ⟨_, Prod.ext (by decide +kernel) rfl⟩
  have hcommit := commit_reachable htake rfl hencode rfl
  have hfinish := hcommit.step
    (ℓ := Label.writer (StoreRun.Label.finish (generatedCheckpoint 1 2) true))
    trivial ⟨_, trivial, ⟨rfl, rfl, rfl⟩, rfl⟩
  have hflush := hfinish.step (ℓ := Label.flush) trivial
    ⟨rfl, true, _, ⟨rfl, rfl, rfl, rfl⟩, rfl⟩
  have hstop := hflush.step (ℓ := Label.stop) trivial
    ⟨true, rfl, .inr ⟨_, ⟨rfl, rfl, _, rfl, rfl⟩, rfl⟩⟩
  have hexit := hstop.step (ℓ := Label.writer StoreRun.Label.exit) trivial
    ⟨_, trivial, ⟨rfl, rfl, rfl, rfl, rfl⟩, rfl⟩
  have hjoined := hexit.step (ℓ := Label.joined) trivial
    ⟨true, rfl, true, _, ⟨rfl, rfl, rfl, rfl, rfl⟩, rfl⟩
  obtain ⟨generator, hreachable, hpc, hpath, hdisk⟩ : ∃ generator, system.Reachable generator
      ∧ generator.pc = .verify ∧ generator.path = "world"
      ∧ generator.run.disk = ⟨some data, none⟩ := ⟨_, hjoined, rfl, rfl, rfl⟩
  have hloads : ((CheckpointStore.new "world").load ⟨some data, none⟩ true
      (List.replicate (data.length + 1) (.done 1)) true).isSome :=
    CheckpointStore.load_isSome (by simp)
  obtain ⟨⟨state, store⟩, hload⟩ := Option.isSome_iff_exists.mp hloads
  have hverify :
      generator.Step (.verify true (List.replicate (data.length + 1) (.done 1)) true) _ :=
    ⟨hpc, state, store, by rw [hpath, hdisk]; exact hload, rfl⟩
  obtain hexited | ⟨-, hopens | hmem | hcloses⟩ :=
    (generated_of_reachable hreachable).2.1 _ _ _ _ hverify
  · refine ⟨_, hreachable.step (ℓ := Label.verify true _ true) trivial hverify, hexited, data,
      hencode, ?_⟩
    exact congrArg Disk.path hdisk
  · cases hopens
  · cases List.eq_of_mem_replicate hmem
  · cases hcloses

end CheckpointGenerator

end RoomServer
