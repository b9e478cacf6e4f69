import RoomServer.Checkpoint.Codec

/-!
# The format of checkpoint files

`fileBytes` is the file of a checkpoint, written without limits and checks.  The writers of
the codec write it when it is not too large, and the readers read it back, and nothing else.
The codec is therefore a bijection between the checkpoints it accepts and the files it accepts.
-/

namespace RoomServer

namespace CheckpointCodec

/-! ### Bytes -/

def u32Bytes (value : UInt32) : Bytes := BigEndian.digits 4 value.toNat

def u64Bytes (value : UInt64) : Bytes := BigEndian.digits 8 value.toNat

/-- A size or a count. -/
def sizeBytes (size : Nat) : Bytes := u32Bytes (UInt32.ofNat size)

def memberBytes (member : CheckpointMember) : Bytes :=
  u64Bytes member.playerId ++ (sizeBytes member.playerName.length ++ member.playerName)

def playerBytes (player : PlayerGameState) : Bytes :=
  u64Bytes player.playerId ++ (u32Bytes player.x.toUInt32
    ++ (u32Bytes player.y.toUInt32 ++ u32Bytes player.hp.toUInt32))

def roomBytes (room : RoomCheckpoint) : Bytes :=
  u32Bytes room.roomId ++ (u64Bytes room.capacity ++ (u64Bytes room.nextPlayerId
    ++ ([roomStateToByte room.state] ++ (u64Bytes room.tickId
    ++ (sizeBytes room.members.length ++ (room.members.flatMap memberBytes
    ++ (sizeBytes room.gameStates.length ++ room.gameStates.flatMap playerBytes)))))))

def sessionBytes (session : SessionCheckpoint) : Bytes :=
  sizeBytes session.token.length ++ (session.token
    ++ (u32Bytes session.roomId ++ u64Bytes session.playerId))

def payloadBytes (checkpoint : ServerCheckpoint) : Bytes :=
  checkpoint.rooms.flatMap roomBytes ++ checkpoint.sessions.flatMap sessionBytes

def headerBytes (header : Header) : Bytes :=
  u32Bytes header.version ++ (u64Bytes header.generation ++ (u32Bytes header.roomCount
    ++ (u32Bytes header.sessionCount ++ (u64Bytes header.payloadSize
    ++ u64Bytes header.storedChecksum))))

/-- The header of the file of a checkpoint. -/
def header (checkpoint : ServerCheckpoint) : Header where
  version := checkpointVersion
  generation := checkpoint.generation
  roomCount := UInt32.ofNat checkpoint.rooms.length
  sessionCount := UInt32.ofNat checkpoint.sessions.length
  payloadSize := UInt64.ofNat (payloadBytes checkpoint).length
  storedChecksum := checksum (payloadBytes checkpoint)

def fileBytes (checkpoint : ServerCheckpoint) : Bytes :=
  checkpointMagic ++ (headerBytes (header checkpoint) ++ payloadBytes checkpoint)

@[simp]
theorem length_u32Bytes (value : UInt32) :
  (u32Bytes value).length = 4
  := BigEndian.length_digits 4 _

@[simp]
theorem length_u64Bytes (value : UInt64) :
  (u64Bytes value).length = 8
  := BigEndian.length_digits 8 _

@[simp]
theorem length_sizeBytes (size : Nat) :
  (sizeBytes size).length = 4
  := length_u32Bytes _

theorem length_memberBytes (member : CheckpointMember) :
  (memberBytes member).length = 12 + member.playerName.length
  := by
  simp only [memberBytes, List.length_append, length_u64Bytes, length_sizeBytes]
  omega

theorem length_playerBytes (player : PlayerGameState) :
  (playerBytes player).length = 20
  := by
  simp [playerBytes]

theorem length_roomBytes (room : RoomCheckpoint) :
  (roomBytes room).length = 37 + (room.members.flatMap memberBytes).length
    + (room.gameStates.flatMap playerBytes).length
  := by
  simp only [roomBytes, List.length_append, length_u32Bytes, length_u64Bytes, length_sizeBytes,
    List.length_singleton]
  omega

theorem length_sessionBytes (session : SessionCheckpoint) :
  (sessionBytes session).length = 16 + session.token.length
  := by
  simp only [sessionBytes, List.length_append, length_u32Bytes, length_u64Bytes, length_sizeBytes]
  omega

theorem length_headerBytes (header : Header) :
  (headerBytes header).length = 36
  := by
  simp [headerBytes]

theorem length_fileBytes (checkpoint : ServerCheckpoint) :
  (fileBytes checkpoint).length = checkpointHeaderSize + (payloadBytes checkpoint).length
  := by
  simp only [fileBytes, List.length_append, length_headerBytes, checkpointMagic,
    checkpointHeaderSize, List.length_cons, List.length_nil]
  omega

/-- A list of records takes at least as much as the smallest records would. -/
theorem mul_length_le_flatMap {α : Type} {write : α → Bytes} {k : Nat}
    (h : ∀ a, k ≤ (write a).length) (as : List α) :
  as.length * k ≤ (as.flatMap write).length
  := Format.length_flatMap_ge (P := fun _ => True) (fun a _ => h a) fun _ _ => trivial

/-- A list of records takes at least as much as any of its records. -/
theorem length_le_flatMap {α : Type} {write : α → Bytes} {a : α} {as : List α} (ha : a ∈ as) :
  (write a).length ≤ (as.flatMap write).length
  := (List.sublist_flatten_of_mem (List.mem_map_of_mem ha)).length_le

/-! ### Writing -/

theorem appendBytes_writes (limit : Nat) (source : Bytes) :
  Writes limit (appendBytes limit source) source
  := by
  intro data hdata
  simp only [appendBytes, canAppend, Bool.and_eq_true, decide_eq_true_eq]
  apply if_congr _ rfl rfl
  omega

theorem appendU8_writes (limit : Nat) (value : UInt8) :
  Writes limit (appendU8 limit value) [value]
  := appendBytes_writes limit [value]

theorem appendU32_writes (limit : Nat) (value : UInt32) :
  Writes limit (appendU32 limit value) (u32Bytes value)
  := by
  rw [u32Bytes, ← BigEndian.map_shiftOut_u32, List.map_eq_flatMap]
  apply Writes.many
  intro shift
  apply appendU8_writes

theorem appendU64_writes (limit : Nat) (value : UInt64) :
  Writes limit (appendU64 limit value) (u64Bytes value)
  := by
  rw [u64Bytes, ← BigEndian.map_shiftOut_u64, List.map_eq_flatMap]
  apply Writes.many
  intro shift
  apply appendU8_writes

theorem not_fitsU32 {value : Nat} (h : (!fitsU32 value) = true) : maxU32 < value := by
  simpa [fitsU32] using h

theorem appendMember_writes (member : CheckpointMember) :
  Writes maxPayloadSize (appendMember member) (memberBytes member)
  := by
  apply Writes.guarded
  · intro hsize
    have := not_fitsU32 hsize
    rw [length_memberBytes]
    simp only [maxPayloadSize, maxCheckpointFileSize, checkpointHeaderSize, maxU32] at this ⊢
    omega
  · apply (appendU64_writes _ _).seq
    apply (appendU32_writes _ _).seq
    apply appendBytes_writes

theorem appendPlayer_writes (player : PlayerGameState) :
  Writes maxPayloadSize (appendPlayer player) (playerBytes player)
  := by
  apply (appendU64_writes _ _).seq
  apply (appendU32_writes _ _).seq
  apply (appendU32_writes _ _).seq
  apply appendU32_writes

theorem appendRoom_writes (room : RoomCheckpoint) :
  Writes maxPayloadSize (appendRoom room) (roomBytes room)
  := by
  apply Writes.guarded
  · intro hsize
    have hmembers := @mul_length_le_flatMap _ memberBytes 12
      (fun m => by rw [length_memberBytes]; omega) room.members
    have hstates := @mul_length_le_flatMap _ playerBytes 20
      (fun m => by rw [length_playerBytes]) room.gameStates
    rw [length_roomBytes]
    rw [Bool.or_eq_true] at hsize
    simp only [maxPayloadSize, maxCheckpointFileSize, checkpointHeaderSize]
    rcases hsize with hsize | hsize
    · have := not_fitsU32 hsize
      simp only [maxU32] at this
      omega
    · have := not_fitsU32 hsize
      simp only [maxU32] at this
      omega
  · apply (appendU32_writes _ _).seq
    apply (appendU64_writes _ _).seq
    apply (appendU64_writes _ _).seq
    apply (appendU8_writes _ _).seq
    apply (appendU64_writes _ _).seq
    apply (appendU32_writes _ _).seq
    apply (Writes.many appendMember_writes _).seq
    apply (appendU32_writes _ _).seq
    apply Writes.many appendPlayer_writes

theorem appendSession_writes (session : SessionCheckpoint) :
  Writes maxPayloadSize (appendSession session) (sessionBytes session)
  := by
  apply Writes.guarded
  · intro hsize
    have := not_fitsU32 hsize
    rw [length_sessionBytes]
    simp only [maxPayloadSize, maxCheckpointFileSize, checkpointHeaderSize, maxU32] at this ⊢
    omega
  · apply (appendU32_writes _ _).seq
    apply (appendBytes_writes _ _).seq
    apply (appendU32_writes _ _).seq
    apply appendU64_writes

theorem appendPayload_writes (checkpoint : ServerCheckpoint) :
  Writes maxPayloadSize (appendPayload checkpoint) (payloadBytes checkpoint)
  := (Writes.many appendRoom_writes _).seq (Writes.many appendSession_writes _)

theorem appendFile_writes (checkpoint : ServerCheckpoint) :
  Writes maxCheckpointFileSize (appendFile checkpoint (payloadBytes checkpoint))
    (fileBytes checkpoint)
  := by
  simp only [fileBytes, headerBytes, header, List.append_assoc]
  apply (appendBytes_writes _ _).seq
  apply (appendU32_writes _ _).seq
  apply (appendU64_writes _ _).seq
  apply (appendU32_writes _ _).seq
  apply (appendU32_writes _ _).seq
  apply (appendU64_writes _ _).seq
  apply (appendU64_writes _ _).seq
  apply appendBytes_writes

/-- A checkpoint that the codec accepts. -/
structure Encodable (checkpoint : ServerCheckpoint) : Prop where
  generation_ne_zero : checkpoint.generation ≠ 0
  keys : validCheckpointKeys checkpoint = true
  size_le : (payloadBytes checkpoint).length ≤ maxPayloadSize

/-- The counts of a checkpoint that the codec accepts are 32-bit numbers. -/
theorem counts_le {checkpoint : ServerCheckpoint}
    (h : (payloadBytes checkpoint).length ≤ maxPayloadSize) :
  checkpoint.rooms.length ≤ maxU32 ∧ checkpoint.sessions.length ≤ maxU32
  := by
  have hrooms := @mul_length_le_flatMap _ roomBytes 37
    (fun room => by rw [length_roomBytes]; omega) checkpoint.rooms
  have hsessions := @mul_length_le_flatMap _ sessionBytes 16
    (fun session => by rw [length_sessionBytes]; omega) checkpoint.sessions
  rw [payloadBytes, List.length_append] at h
  simp only [maxPayloadSize, maxCheckpointFileSize, checkpointHeaderSize] at h
  simp only [maxU32]
  omega

/-- What `encode` does with a checkpoint that has a generation and valid keys. -/
theorem encode_of_valid {checkpoint : ServerCheckpoint} (hgeneration : checkpoint.generation ≠ 0)
    (hkeys : validCheckpointKeys checkpoint = true) (data : Bytes) :
  encode checkpoint data
    = if (payloadBytes checkpoint).length ≤ maxPayloadSize
      then (.success, fileBytes checkpoint) else (.tooLarge, data)
  := by
  rw [encode, if_neg hgeneration]
  split
  · next hcounts =>
    rw [if_neg]
    intro hsize
    obtain ⟨hrooms, hsessions⟩ := counts_le hsize
    simp [fitsU32, hrooms, hsessions] at hcounts
  · rw [hkeys, (appendPayload_writes checkpoint).start]
    by_cases hsize : (payloadBytes checkpoint).length ≤ maxPayloadSize
    · have hfile : (fileBytes checkpoint).length ≤ maxCheckpointFileSize := by
        rw [length_fileBytes]
        simp only [maxPayloadSize, maxCheckpointFileSize, checkpointHeaderSize] at hsize ⊢
        omega
      simp only [Bool.not_true, Bool.false_eq_true, if_false, if_pos hsize]
      rw [(appendFile_writes checkpoint).start, if_pos hfile]
    · simp only [Bool.not_true, Bool.false_eq_true, if_false, if_neg hsize]

/-- The codec writes the checkpoints it accepts, and keeps its output on a failure. -/
theorem encode_cases (checkpoint : ServerCheckpoint) (data : Bytes) :
  Encodable checkpoint ∧ encode checkpoint data = (.success, fileBytes checkpoint)
    ∨ ¬Encodable checkpoint ∧ (encode checkpoint data).1 ≠ .success
      ∧ (encode checkpoint data).2 = data
  := by
  by_cases hgeneration : checkpoint.generation = 0
  · right
    refine ⟨fun h => h.generation_ne_zero hgeneration, ?_⟩
    rw [encode, if_pos hgeneration]
    simp
  · by_cases hkeys : validCheckpointKeys checkpoint = true
    · rw [encode_of_valid hgeneration hkeys]
      by_cases hsize : (payloadBytes checkpoint).length ≤ maxPayloadSize
      · left
        exact ⟨⟨hgeneration, hkeys, hsize⟩, if_pos hsize⟩
      · right
        refine ⟨fun h => hsize h.size_le, ?_⟩
        rw [if_neg hsize]
        simp
    · right
      refine ⟨fun h => hkeys h.keys, ?_⟩
      rw [encode, if_neg hgeneration]
      split
      · simp
      · simp [hkeys]

/-! ### Reading -/

variable {data rest : Bytes}

theorem readU8_eq_some_iff {value : UInt8} :
  readU8 data = some (value, rest) ↔ data = [value] ++ rest
  := by
  cases data with
  | nil => simp [readU8]
  | cons byte data => simp [readU8]

theorem readU32_eq_takeU32 :
  readU32 = Format.takeU32
  := by
  funext data
  rw [readU32, Format.takeU32, Format.takeNumber, Format.takeBytes]
  split
  · rfl
  · simp [BigEndian.foldl_shiftIn_u32]

theorem readU64_eq_takeU64 :
  readU64 = Format.takeU64
  := by
  funext data
  rw [readU64, Format.takeU64, Format.takeNumber, Format.takeBytes]
  split
  · rfl
  · simp [BigEndian.foldl_shiftIn_u64]

theorem readU32_eq_some_iff {value : UInt32} :
  readU32 data = some (value, rest) ↔ data = u32Bytes value ++ rest
  := by
  rw [readU32_eq_takeU32, Format.u32.read_eq_some_iff]
  simp [u32Bytes]

theorem readU64_eq_some_iff {value : UInt64} :
  readU64 data = some (value, rest) ↔ data = u64Bytes value ++ rest
  := by
  rw [readU64_eq_takeU64, Format.u64.read_eq_some_iff]
  simp [u64Bytes]

theorem readString_eq_some_iff {size : UInt32} {value : Bytes} :
  readString size data = some (value, rest)
    ↔ value.length = size.toNat ∧ data = value ++ rest
  := (Format.bytes size.toNat).read_eq_some_iff

theorem byteToRoomState_eq_some_iff {value : UInt8} {state : Roomstatemachine.States} :
  byteToRoomState value = some state ↔ value = roomStateToByte state
  := by
  constructor
  · intro h
    rw [byteToRoomState.eq_def] at h
    split at h <;> cases h <;> rfl
  · rintro rfl
    cases state <;> rfl

/-- A size that is read is the size it was written for. -/
theorem sizeBytes_of_eq {size : UInt32} {n : Nat} (h : n = size.toNat) :
  u32Bytes size = sizeBytes n
  := by
  rw [sizeBytes, h, UInt32.ofNat_toNat]

theorem toNat_size {n : Nat} (h : n ≤ maxU32) :
  (UInt32.ofNat n).toNat = n
  := by
  simp only [maxU32] at h
  apply UInt32.toNat_ofNat_of_lt'
  apply Nat.lt_succ_of_le h

theorem member_format :
  Format (fun member => member.playerName.length ≤ maxU32) memberBytes readMember
  := by
  apply Format.of_iff
  intro data member rest
  simp only [readMember, Option.bind_eq_bind, Option.bind_eq_some_iff, Prod.exists,
    readU64_eq_some_iff, readU32_eq_some_iff, readString_eq_some_iff, Option.pure_def,
    Option.some.injEq, Prod.mk.injEq]
  constructor
  · rintro ⟨playerId, _, rfl, size, _, rfl, name, _, ⟨hsize, rfl⟩, rfl, rfl⟩
    constructor
    · have := size.toNat_lt
      simp only [maxU32]
      omega
    · simp only [memberBytes, sizeBytes_of_eq hsize, List.append_assoc]
  · rintro ⟨hsize, rfl⟩
    refine ⟨member.playerId, _, ?_, UInt32.ofNat member.playerName.length, _, rfl,
      member.playerName, rest, ⟨(toNat_size hsize).symm, rfl⟩, rfl, rfl⟩
    simp only [memberBytes, sizeBytes, List.append_assoc]

theorem player_format :
  Format (fun _ => True) playerBytes readPlayer
  := by
  apply Format.of_iff
  intro data player rest
  simp only [readPlayer, Option.bind_eq_bind, Option.bind_eq_some_iff, Prod.exists,
    readU64_eq_some_iff, readU32_eq_some_iff, Option.pure_def, Option.some.injEq,
    Prod.mk.injEq, true_and]
  constructor
  · rintro ⟨playerId, _, rfl, x, _, rfl, y, _, rfl, hp, _, rfl, rfl, rfl⟩
    simp only [playerBytes, List.append_assoc, UInt32.toUInt32_toInt32]
  · rintro rfl
    refine ⟨player.playerId, _, ?_, player.x.toUInt32, _, rfl, player.y.toUInt32, _, rfl,
      player.hp.toUInt32, rest, rfl, ?_, rfl⟩
    · simp only [playerBytes, List.append_assoc]
    · simp

theorem session_format :
  Format (fun session => session.token.length ≤ maxU32) sessionBytes readSession
  := by
  apply Format.of_iff
  intro data session rest
  simp only [readSession, Option.bind_eq_bind, Option.bind_eq_some_iff, Prod.exists,
    readU64_eq_some_iff, readU32_eq_some_iff, readString_eq_some_iff, Option.pure_def,
    Option.some.injEq, Prod.mk.injEq]
  constructor
  · rintro ⟨size, _, rfl, token, _, ⟨hsize, rfl⟩, roomId, _, rfl, playerId, _, rfl, rfl, rfl⟩
    constructor
    · have := size.toNat_lt
      simp only [maxU32]
      omega
    · simp only [sessionBytes, sizeBytes_of_eq hsize, List.append_assoc]
  · rintro ⟨hsize, rfl⟩
    refine ⟨UInt32.ofNat session.token.length, _, ?_, session.token, _,
      ⟨(toNat_size hsize).symm, rfl⟩, session.roomId, _, rfl, session.playerId, rest, rfl, rfl,
      rfl⟩
    simp only [sessionBytes, sizeBytes, List.append_assoc]

/-- A count that is not too large for the data does not hinder the reading of records of at
least `k` bytes with at least `extra` bytes behind them. -/
theorem readCounted_eq_some_iff {α : Type} {P : α → Prop} {write : α → Bytes} {read : Reader α}
    (F : Format P write read) {k : Nat} (hk : 0 < k) (h : ∀ a, k ≤ (write a).length)
    {count : UInt32} {extra : Nat} {as : List α} (hextra : extra ≤ rest.length) :
  (if count.toNat > (data.length - extra) / k then none
      else Format.takeMany read count.toNat data) = some (as, rest)
    ↔ (as.length = count.toNat ∧ ∀ a ∈ as, P a) ∧ data = as.flatMap write ++ rest
  := by
  rw [← (F.many count.toNat).read_eq_some_iff]
  constructor
  · intro hread
    split at hread
    · cases hread
    · exact hread
  · intro hread
    obtain ⟨⟨hlen, -⟩, rfl⟩ := (F.many count.toNat).read_eq_some_iff.mp hread
    rw [if_neg]
    · exact hread
    · rw [Nat.not_lt, Nat.le_div_iff_mul_le hk, ← hlen, List.length_append]
      have := mul_length_le_flatMap h as
      omega

theorem readMembers_eq_some_iff {count : UInt32} {members : List CheckpointMember}
    (hrest : 4 ≤ rest.length) :
  readMembers count data = some (members, rest)
    ↔ (members.length = count.toNat ∧ ∀ m ∈ members, m.playerName.length ≤ maxU32)
      ∧ data = members.flatMap memberBytes ++ rest
  := by
  rw [← readCounted_eq_some_iff member_format (k := 12) (by omega)
    (fun m => by rw [length_memberBytes]; omega) hrest, readMembers]
  split
  · next hlen =>
    constructor
    · intro h
      cases h
    · intro h
      split at h
      · cases h
      · obtain ⟨-, rfl⟩ := (member_format.many _).write_read h
        rw [List.length_append] at hlen
        omega
  · rfl

theorem readPlayers_eq_some_iff {count : UInt32} {players : List PlayerGameState} :
  readPlayers count data = some (players, rest)
    ↔ players.length = count.toNat ∧ data = players.flatMap playerBytes ++ rest
  := by
  have h := @readCounted_eq_some_iff data rest _ _ _ _ player_format 20 (by omega)
    (fun p => by rw [length_playerBytes]) count 0 players (Nat.zero_le rest.length)
  simpa [readPlayers] using h

/-- The sizes and counts of a room are 32-bit numbers. -/
structure RoomFits (room : RoomCheckpoint) : Prop where
  members : room.members.length ≤ maxU32
  names : ∀ member ∈ room.members, member.playerName.length ≤ maxU32
  gameStates : room.gameStates.length ≤ maxU32

theorem toNat_le_maxU32 (value : UInt32) : value.toNat ≤ maxU32 := by
  have := value.toNat_lt
  simp only [maxU32]
  omega

theorem room_format :
  Format RoomFits roomBytes readRoom
  := by
  apply Format.of_iff
  intro data room rest
  simp only [readRoom, Option.bind_eq_bind, Option.bind_eq_some_iff, Prod.exists,
    readU64_eq_some_iff, readU32_eq_some_iff, readU8_eq_some_iff, readPlayers_eq_some_iff,
    byteToRoomState_eq_some_iff, Option.pure_def, Option.some.injEq, Prod.mk.injEq]
  constructor
  · rintro ⟨roomId, _, rfl, capacity, _, rfl, next, _, rfl, byte, _, rfl, tick, _, rfl, count, _,
      rfl, state, rfl, members, _, hmembers, count', _, rfl, players, _, ⟨hplayers, rfl⟩, rfl, rfl⟩
    rw [readMembers_eq_some_iff (by simp)] at hmembers
    obtain ⟨⟨hcount, hnames⟩, rfl⟩ := hmembers
    constructor
    · constructor
      · rw [hcount]
        apply toNat_le_maxU32
      · exact hnames
      · rw [hplayers]
        apply toNat_le_maxU32
    · simp only [roomBytes, sizeBytes_of_eq hcount, sizeBytes_of_eq hplayers, List.append_assoc]
  · rintro ⟨⟨hmembers, hnames, hplayers⟩, rfl⟩
    refine ⟨room.roomId, _, ?_, room.capacity, _, rfl, room.nextPlayerId, _, rfl,
      roomStateToByte room.state, _, rfl, room.tickId, _, rfl, UInt32.ofNat room.members.length,
      _, rfl, room.state, rfl, room.members, _,
      (readMembers_eq_some_iff ?_).mpr ⟨⟨(toNat_size hmembers).symm, hnames⟩, rfl⟩,
      UInt32.ofNat room.gameStates.length, _, rfl, room.gameStates, rest,
      ⟨(toNat_size hplayers).symm, rfl⟩, rfl, rfl⟩
    · simp only [roomBytes, sizeBytes, List.append_assoc]
    · simp

theorem readRooms_eq_some_iff {count : UInt32} {rooms : List RoomCheckpoint} :
  readRooms count data = some (rooms, rest)
    ↔ (rooms.length = count.toNat ∧ ∀ room ∈ rooms, RoomFits room)
      ∧ data = rooms.flatMap roomBytes ++ rest
  := readCounted_eq_some_iff room_format (k := 37) (by omega)
    (fun room => by rw [length_roomBytes]; omega) (Nat.zero_le rest.length)

theorem readSessions_eq_some_iff {count : UInt32} {sessions : List SessionCheckpoint} :
  readSessions count data = some (sessions, rest)
    ↔ (sessions.length = count.toNat ∧ ∀ session ∈ sessions, session.token.length ≤ maxU32)
      ∧ data = sessions.flatMap sessionBytes ++ rest
  := readCounted_eq_some_iff session_format (k := 16) (by omega)
    (fun session => by rw [length_sessionBytes]; omega) (Nat.zero_le rest.length)

theorem readHeader_eq_some_iff {header : Header} :
  readHeader data = some (header, rest) ↔ data = headerBytes header ++ rest
  := by
  simp only [readHeader, Option.bind_eq_bind, Option.bind_eq_some_iff, Prod.exists,
    readU64_eq_some_iff, readU32_eq_some_iff, Option.pure_def, Option.some.injEq,
    Prod.mk.injEq]
  constructor
  · rintro ⟨version, _, rfl, generation, _, rfl, rooms, _, rfl, sessions, _, rfl, size, _, rfl,
      sum, _, rfl, rfl, rfl⟩
    simp only [headerBytes, List.append_assoc]
  · rintro rfl
    refine ⟨header.version, _, ?_, header.generation, _, rfl, header.roomCount, _, rfl,
      header.sessionCount, _, rfl, header.payloadSize, _, rfl, header.storedChecksum, rest, rfl,
      rfl, rfl⟩
    simp only [headerBytes, List.append_assoc]

/-- Every size and count of a payload that is not too large is a 32-bit number. -/
theorem fits_of_size_le {checkpoint : ServerCheckpoint}
    (h : (payloadBytes checkpoint).length ≤ maxPayloadSize) :
  (∀ room ∈ checkpoint.rooms, RoomFits room)
    ∧ ∀ session ∈ checkpoint.sessions, session.token.length ≤ maxU32
  := by
  rw [payloadBytes, List.length_append] at h
  simp only [maxPayloadSize, maxCheckpointFileSize, checkpointHeaderSize] at h
  simp only [maxU32]
  constructor
  · intro room hroom
    have hlen := @length_le_flatMap _ roomBytes _ _ hroom
    rw [length_roomBytes] at hlen
    have hmembers := @mul_length_le_flatMap _ memberBytes 12
      (fun m => by rw [length_memberBytes]; omega) room.members
    have hstates := @mul_length_le_flatMap _ playerBytes 20
      (fun m => by rw [length_playerBytes]) room.gameStates
    constructor
    · simp only [maxU32]
      omega
    · intro member hmember
      have hname := @length_le_flatMap _ memberBytes _ _ hmember
      rw [length_memberBytes] at hname
      simp only [maxU32]
      omega
    · simp only [maxU32]
      omega
  · intro session hsession
    have hlen := @length_le_flatMap _ sessionBytes _ _ hsession
    rw [length_sessionBytes] at hlen
    omega

/-- Exactly the payload of a checkpoint whose sizes fit is read as this checkpoint. -/
theorem readPayload_eq_some_iff {head : Header} {checkpoint : ServerCheckpoint}
    (hdata : data.length ≤ maxPayloadSize) :
  readPayload head data = some (checkpoint, rest)
    ↔ checkpoint.generation = head.generation
      ∧ checkpoint.rooms.length = head.roomCount.toNat
      ∧ checkpoint.sessions.length = head.sessionCount.toNat
      ∧ data = payloadBytes checkpoint ++ rest
  := by
  simp only [readPayload, Option.bind_eq_bind, Option.bind_eq_some_iff, Prod.exists,
    readRooms_eq_some_iff, readSessions_eq_some_iff, Option.pure_def, Option.some.injEq,
    Prod.mk.injEq]
  constructor
  · rintro ⟨rooms, _, ⟨⟨hrooms, -⟩, rfl⟩, sessions, _, ⟨⟨hsessions, -⟩, rfl⟩, rfl, rfl⟩
    refine ⟨rfl, hrooms, hsessions, ?_⟩
    rw [payloadBytes, List.append_assoc]
  · rintro ⟨hgeneration, hrooms, hsessions, rfl⟩
    rw [List.length_append] at hdata
    obtain ⟨hroomsFit, hsessionsFit⟩ := @fits_of_size_le checkpoint (by omega)
    refine ⟨checkpoint.rooms, _, ⟨⟨hrooms, hroomsFit⟩, ?_⟩, checkpoint.sessions, rest,
      ⟨⟨hsessions, hsessionsFit⟩, rfl⟩, ?_, rfl⟩
    · rw [payloadBytes, List.append_assoc]
    · rw [← hgeneration]

/-- The parts of a file. -/
theorem file_parts {head payload : Bytes} (hhead : head.length = 36)
    (hdata : data = checkpointMagic ++ (head ++ payload)) :
  data.take checkpointMagic.length = checkpointMagic
    ∧ (data.take checkpointHeaderSize).drop checkpointMagic.length = head
    ∧ data.drop checkpointHeaderSize = payload
  := by
  have hlen : (checkpointMagic ++ head).length = checkpointHeaderSize := by
    rw [List.length_append, hhead]
    rfl
  refine ⟨?_, ?_, ?_⟩
  · rw [hdata, List.take_left]
  · rw [hdata, ← List.append_assoc, ← hlen, List.take_left, List.drop_left]
  · rw [hdata, ← List.append_assoc, ← hlen, List.drop_left]

/-- The checks that a file passes. -/
structure Checked (data : Bytes) (head : Header) (checkpoint : ServerCheckpoint) : Prop where
  size_le : data.length ≤ maxCheckpointFileSize
  le_size : checkpointHeaderSize ≤ data.length
  magic : data.take checkpointMagic.length = checkpointMagic
  header : readHeader ((data.take checkpointHeaderSize).drop checkpointMagic.length)
    = some (head, [])
  version : head.version = checkpointVersion
  generation : head.generation ≠ 0
  payloadSize : head.payloadSize = UInt64.ofNat (data.length - checkpointHeaderSize)
  storedChecksum : head.storedChecksum = checksum (data.drop checkpointHeaderSize)
  payload : readPayload head (data.drop checkpointHeaderSize) = some (checkpoint, [])
  keys : validCheckpointKeys checkpoint = true

theorem decodeFile_eq_ok_iff_checked {checkpoint : ServerCheckpoint} :
  decodeFile data = .ok checkpoint ↔ ∃ head, Checked data head checkpoint
  := by
  constructor
  · intro h
    rw [decodeFile] at h
    split at h
    · cases h
    · next hmax =>
      split at h
      · cases h
      · next hmin =>
        split at h
        · cases h
        · next hmagic =>
          split at h
          · cases h
          · next head rest hhead =>
            split at h
            · cases h
            · next hrest =>
              split at h
              · cases h
              · next hversion =>
                split at h
                · cases h
                · next hgeneration =>
                  split at h
                  · cases h
                  · next hsize =>
                    split at h
                    · cases h
                    · next hsum =>
                      split at h
                      · cases h
                      · next temp rest' hpayload =>
                        split at h
                        · cases h
                        · next hrest' =>
                          split at h
                          · cases h
                          · next hkeys =>
                            cases h
                            rw [not_not] at hmagic hrest hrest' hversion hsize hsum
                            subst hrest hrest'
                            use head
                            constructor
                            · apply Nat.le_of_not_lt hmax
                            · apply Nat.le_of_not_lt hmin
                            · exact hmagic
                            · exact hhead
                            · exact hversion
                            · exact hgeneration
                            · exact hsize
                            · exact hsum
                            · exact hpayload
                            · simpa using hkeys
  · rintro ⟨head, h⟩
    rw [decodeFile, if_neg (Nat.not_lt.mpr h.size_le), if_neg (Nat.not_lt.mpr h.le_size),
      if_neg (not_not.mpr h.magic), h.header]
    dsimp only
    rw [if_neg (not_not.mpr rfl), if_neg (not_not.mpr h.version), if_neg h.generation,
      if_neg (not_not.mpr h.payloadSize), if_neg (not_not.mpr h.storedChecksum), h.payload]
    dsimp only
    rw [if_neg (not_not.mpr rfl), h.keys]
    rfl

/-- The codec reads exactly the files of the checkpoints it accepts. -/
theorem decodeFile_eq_ok_iff {checkpoint : ServerCheckpoint} :
  decodeFile data = .ok checkpoint ↔ Encodable checkpoint ∧ data = fileBytes checkpoint
  := by
  rw [decodeFile_eq_ok_iff_checked]
  constructor
  · rintro ⟨head, h⟩
    have hpayloadSize : (data.drop checkpointHeaderSize).length ≤ maxPayloadSize := by
      rw [List.length_drop]
      apply Nat.sub_le_sub_right h.size_le _
    obtain ⟨hgeneration, hrooms, hsessions, hpayload⟩ :=
      (readPayload_eq_some_iff hpayloadSize).mp h.payload
    rw [List.append_nil] at hpayload
    have hhead := readHeader_eq_some_iff.mp h.header
    rw [List.append_nil] at hhead
    have hheader : header checkpoint = head := by
      rw [header, ← hpayload, hrooms, hsessions, UInt32.ofNat_toNat, UInt32.ofNat_toNat,
        List.length_drop, ← h.payloadSize, ← h.storedChecksum, ← h.version, hgeneration]
    constructor
    · constructor
      · rw [hgeneration]
        apply h.generation
      · apply h.keys
      · rw [← hpayload]
        exact hpayloadSize
    · have htake : (data.take checkpointHeaderSize).take checkpointMagic.length
          = data.take checkpointMagic.length := by
        rw [List.take_take]
        rfl
      rw [fileBytes, hheader, ← hpayload, ← hhead, ← List.append_assoc]
      nth_rewrite 1 [← h.magic]
      rw [← htake, List.take_append_drop, List.take_append_drop]
  · rintro ⟨h, rfl⟩
    obtain ⟨hmagic, hhead, hpayload⟩ := @file_parts (fileBytes checkpoint) _ _
      (length_headerBytes (header checkpoint)) rfl
    obtain ⟨hrooms, hsessions⟩ := counts_le h.size_le
    have hlen := length_fileBytes checkpoint
    use header checkpoint
    constructor
    · rw [hlen]
      have := h.size_le
      simp only [maxPayloadSize, maxCheckpointFileSize, checkpointHeaderSize] at this ⊢
      omega
    · rw [hlen]
      apply Nat.le_add_right _ _
    · exact hmagic
    · rw [hhead, readHeader_eq_some_iff, List.append_nil]
    · rfl
    · apply h.generation_ne_zero
    · rw [hlen, Nat.add_sub_cancel_left]
      rfl
    · rw [hpayload]
      rfl
    · rw [hpayload, readPayload_eq_some_iff h.size_le, List.append_nil]
      exact ⟨rfl, (toNat_size hrooms).symm, (toNat_size hsessions).symm, rfl⟩
    · apply h.keys

/-- A failure is not called a success. -/
theorem decodeFile_ne_success (data : Bytes) :
  decodeFile data ≠ .error .success
  := by
  intro h
  rw [decodeFile] at h
  repeat' split at h
  all_goals cases h

/-- The codec reads the files of the checkpoints it accepts, and keeps its output on a
failure. -/
theorem decode_cases (data : Bytes) (checkpoint : ServerCheckpoint) :
  (∃ temp, Encodable temp ∧ data = fileBytes temp ∧ decode data checkpoint = (.success, temp))
    ∨ (decode data checkpoint).1 ≠ .success ∧ (decode data checkpoint).2 = checkpoint
  := by
  rw [decode]
  cases h : decodeFile data with
  | ok temp =>
    left
    obtain ⟨hencodable, hdata⟩ := decodeFile_eq_ok_iff.mp h
    exact ⟨temp, hencodable, hdata, rfl⟩
  | error state =>
    right
    constructor
    · rintro rfl
      apply decodeFile_ne_success data h
    · rfl

theorem decode_fileBytes {checkpoint : ServerCheckpoint} (h : Encodable checkpoint)
    (output : ServerCheckpoint) :
  decode (fileBytes checkpoint) output = (.success, checkpoint)
  := by
  rw [decode, decodeFile_eq_ok_iff.mpr ⟨h, rfl⟩]

/-! ### The bijection -/

/-- What is written is read back. -/
theorem encode_decode_round (checkpoint : ServerCheckpoint) (data : Bytes)
    (output : ServerCheckpoint) (hsuccess : (encode checkpoint data).1 = .success) :
  decode (encode checkpoint data).2 output = (.success, checkpoint)
  := by
  obtain ⟨h, heq⟩ | ⟨-, hne, -⟩ := encode_cases checkpoint data
  · rw [heq]
    apply decode_fileBytes h output
  · exact absurd hsuccess hne

/-- A checkpoint of a room with a member that has a session. -/
def small : ServerCheckpoint where
  generation := 1
  rooms := [⟨1, 2, 2, .waiting, 0, [⟨1, [65]⟩], []⟩]
  sessions := [⟨List.replicate 32 97, 1, 1⟩]

example : (encode small []).1 = .success ∧ (encode small []).2.length = 40 + 50 + 48 := by
  decide +kernel

end CheckpointCodec

end RoomServer
