import RoomServer.Checkpoint.FileFormat

/-!
# Damaged files

A file of a checkpoint that is cut off, extended, or changed in one byte is not read as other
rooms or sessions.  A change of the payload changes its checksum, as each byte of the fold is
injective.  The counts of the header are not covered by the checksum, but the payload
determines its rooms and sessions without them: a session begins with a token, and where the
state of a room would be there is a digit of the token.
-/

namespace RoomServer

namespace CheckpointCodec

/-! ### The checksum -/

/-- The checksum of bytes behind bytes with the checksum `hash`. -/
def absorb (hash : UInt64) (data : Bytes) : UInt64 :=
  data.foldl (fun hash byte => (hash ^^^ byte.toUInt64) * fnvPrime) hash

theorem mul_fnvPrime_injective {a b : UInt64} (h : a * fnvPrime = b * fnvPrime) :
  a = b
  := by
  have hinv : fnvPrime * 14886173955864302971 = 1 := by decide
  have heq := congrArg (· * (14886173955864302971 : UInt64)) h
  simpa only [UInt64.mul_assoc, hinv, UInt64.mul_one] using heq

/-- Different checksums stay different behind the same bytes. -/
theorem absorb_injective {hash hash' : UInt64} {data : Bytes}
    (h : absorb hash data = absorb hash' data) :
  hash = hash'
  := by
  induction data generalizing hash hash' with
  | nil => exact h
  | cons byte data ih =>
    have hnext := mul_fnvPrime_injective (ih h)
    apply (UInt64.xor_left_inj _).mp hnext

/-- Data that differ in one byte have different checksums. -/
theorem checksum_set_ne {data : Bytes} {i : Nat} (hi : i < data.length) {byte : UInt8}
    (hbyte : byte ≠ data[i]) :
  checksum (data.set i byte) ≠ checksum data
  := by
  intro h
  have hsplit : data = data.take i ++ data[i] :: data.drop (i + 1) := by
    rw [List.getElem_cons_drop, List.take_append_drop]
  have hset : data.set i byte = data.take i ++ byte :: data.drop (i + 1) :=
    List.set_eq_take_append_cons_drop.trans (if_pos hi)
  rw [hset] at h
  nth_rewrite 3 [hsplit] at h
  simp only [checksum, List.foldl_append, List.foldl_cons] at h
  have hnext := mul_fnvPrime_injective (absorb_injective h)
  apply hbyte (UInt8.toUInt64_inj.mp ((UInt64.xor_right_inj _).mp hnext))

/-! ### The payload -/

theorem getElem_roomBytes (room : RoomCheckpoint) (r : Bytes) :
  (roomBytes room ++ r)[20]? = some (roomStateToByte room.state)
  := by
  rw [roomBytes, List.append_assoc, List.getElem?_append_right (by simp), List.append_assoc,
    List.getElem?_append_right (by simp), List.append_assoc,
    List.getElem?_append_right (by simp), List.append_assoc]
  simp

theorem getElem_sessionBytes {session : SessionCheckpoint} (h : session.token.length = 32)
    (r : Bytes) :
  (sessionBytes session ++ r)[20]? = session.token[16]?
  := by
  rw [sessionBytes, List.append_assoc, List.getElem?_append_right (by simp), List.append_assoc,
    List.getElem?_append_left (by rw [h]; simp)]
  simp

/-- A room does not begin like a session with a valid token. -/
theorem roomBytes_ne_sessionBytes (room : RoomCheckpoint) {session : SessionCheckpoint}
    (h : validSessionToken session.token = true) (r s : Bytes) :
  roomBytes room ++ r ≠ sessionBytes session ++ s
  := by
  rw [validSessionToken, Bool.and_eq_true, beq_iff_eq, List.all_eq_true] at h
  obtain ⟨hlen, hhex⟩ := h
  intro heq
  have hbyte := congrArg (fun data : Bytes => data[20]?) heq
  rw [getElem_roomBytes, getElem_sessionBytes hlen] at hbyte
  have hdigit := hhex _ (List.mem_of_getElem? hbyte.symm)
  cases hstate : room.state <;>
    rw [hstate] at hdigit <;>
    revert hdigit <;>
    decide

theorem roomBytes_ne_nil (room : RoomCheckpoint) : roomBytes room ≠ [] := by
  intro h
  have hlen := length_roomBytes room
  rw [h, List.length_nil] at hlen
  omega

theorem sessionBytes_ne_nil (session : SessionCheckpoint) : sessionBytes session ≠ [] := by
  intro h
  have hlen := length_sessionBytes session
  rw [h, List.length_nil] at hlen
  omega

theorem Encodable.validToken {checkpoint : ServerCheckpoint} (h : Encodable checkpoint)
    {session : SessionCheckpoint} (hsession : session ∈ checkpoint.sessions) :
  validSessionToken session.token = true
  := by
  have hkeys := h.keys
  simp only [validCheckpointKeys, Bool.and_eq_true, List.all_eq_true] at hkeys
  apply hkeys.1.1.2 session hsession

/-- The payload determines the rooms and the sessions. -/
theorem payloadBytes_injective {checkpoint checkpoint' : ServerCheckpoint}
    (h : Encodable checkpoint) (h' : Encodable checkpoint')
    (heq : payloadBytes checkpoint = payloadBytes checkpoint') :
  checkpoint.rooms = checkpoint'.rooms ∧ checkpoint.sessions = checkpoint'.sessions
  := by
  obtain ⟨hrooms, hsessions⟩ := fits_of_size_le h.size_le
  obtain ⟨hrooms', hsessions'⟩ := fits_of_size_le h'.size_le
  apply room_format.flatMap_append_injective session_format
    (fun room _ => roomBytes_ne_nil room) (fun session _ => sessionBytes_ne_nil session)
    hrooms hrooms' hsessions hsessions' _ heq
  rintro room - session (hsession | hsession) r s
  · apply roomBytes_ne_sessionBytes room (h.validToken hsession) r s
  · apply roomBytes_ne_sessionBytes room (h'.validToken hsession) r s

/-! ### The file -/

theorem drop_fileBytes (checkpoint : ServerCheckpoint) :
  (fileBytes checkpoint).drop checkpointHeaderSize = payloadBytes checkpoint
  := (file_parts (length_headerBytes (header checkpoint)) rfl).2.2

/-- The header tells how long the file is. -/
theorem length_eq_of_take {checkpoint checkpoint' : ServerCheckpoint} (h : Encodable checkpoint)
    (h' : Encodable checkpoint')
    (heq : (fileBytes checkpoint).take checkpointHeaderSize
      = (fileBytes checkpoint').take checkpointHeaderSize) :
  (fileBytes checkpoint).length = (fileBytes checkpoint').length
  := by
  have hhead : ∀ checkpoint, ((fileBytes checkpoint).take checkpointHeaderSize).drop
      checkpointMagic.length = headerBytes (header checkpoint) := fun checkpoint =>
    (file_parts (length_headerBytes (header checkpoint)) rfl).2.1
  have hbytes : headerBytes (header checkpoint) = headerBytes (header checkpoint') := by
    rw [← hhead, ← hhead, heq]
  have hread : ∀ head, readHeader (headerBytes head) = some (head, []) := by
    intro head
    rw [readHeader_eq_some_iff, List.append_nil]
  have hheader := hread (header checkpoint)
  rw [hbytes, hread, Option.some.injEq, Prod.mk.injEq] at hheader
  have hsize := congrArg (fun head : Header => head.payloadSize.toNat) hheader.1
  have hle := h.size_le
  have hle' := h'.size_le
  simp only [header, UInt64.toNat_ofNat', maxPayloadSize, maxCheckpointFileSize,
    checkpointHeaderSize] at hsize hle hle'
  rw [length_fileBytes, length_fileBytes]
  omega

/-- A file is not the beginning of another one. -/
theorem eq_of_isBeginning {checkpoint checkpoint' : ServerCheckpoint} (h : Encodable checkpoint)
    (h' : Encodable checkpoint') (hle : fileBytes checkpoint <+: fileBytes checkpoint') :
  fileBytes checkpoint = fileBytes checkpoint'
  := by
  apply hle.eq_of_length
  apply length_eq_of_take h h'
  obtain ⟨extra, hextra⟩ := hle
  rw [← hextra, List.take_append_of_le_length]
  rw [length_fileBytes]
  apply Nat.le_add_right _ _

/-! ### Damage -/

/-- A file with a changed byte of the payload passes the checks up to the one of the checksum,
and fails there. -/
theorem decodeFile_set_payload {checkpoint : ServerCheckpoint} (h : Encodable checkpoint)
    {i : Nat} {byte : UInt8} (hi : i < (fileBytes checkpoint).length)
    (hpayload : checkpointHeaderSize ≤ i) (hbyte : byte ≠ (fileBytes checkpoint)[i]) :
  decodeFile ((fileBytes checkpoint).set i byte) = .error .checksumMismatch
  := by
  obtain ⟨head, hchecked⟩ := decodeFile_eq_ok_iff_checked.mp (decodeFile_eq_ok_iff.mpr ⟨h, rfl⟩)
  generalize fileBytes checkpoint = data at hi hbyte hchecked ⊢
  have hmagic : (data.set i byte).take checkpointMagic.length = checkpointMagic := by
    rw [List.take_set_of_le (le_trans (by decide) hpayload)]
    apply hchecked.magic
  have hhead : (data.set i byte).take checkpointHeaderSize = data.take checkpointHeaderSize :=
    List.take_set_of_le hpayload
  have hsum : head.storedChecksum ≠ checksum ((data.set i byte).drop checkpointHeaderSize) := by
    rw [List.drop_set, if_neg (Nat.not_lt.mpr hpayload), hchecked.storedChecksum]
    have hlen : i - checkpointHeaderSize < (data.drop checkpointHeaderSize).length := by
      rw [List.length_drop]
      omega
    apply (checksum_set_ne hlen _).symm
    rw [List.getElem_drop]
    simpa only [Nat.add_sub_cancel' hpayload] using hbyte
  rw [decodeFile, List.length_set, if_neg (Nat.not_lt.mpr hchecked.size_le),
    if_neg (Nat.not_lt.mpr hchecked.le_size), if_neg (not_not.mpr hmagic), hhead,
    hchecked.header]
  dsimp only
  rw [if_neg (not_not.mpr rfl), if_neg (not_not.mpr hchecked.version), if_neg hchecked.generation,
    if_neg (not_not.mpr hchecked.payloadSize), if_pos hsum]

/-- A file with a changed byte of the header is not read as other rooms or sessions. -/
theorem decode_set_header {checkpoint : ServerCheckpoint} (h : Encodable checkpoint)
    {i : Nat} (byte : UInt8) (hheader : i < checkpointHeaderSize) (output : ServerCheckpoint) :
  (decode ((fileBytes checkpoint).set i byte) output).1 ≠ .success
    ∨ (decode ((fileBytes checkpoint).set i byte) output).2.rooms = checkpoint.rooms
      ∧ (decode ((fileBytes checkpoint).set i byte) output).2.sessions = checkpoint.sessions
  := by
  obtain ⟨temp, htemp, hdata, hread⟩ | ⟨hfailure, -⟩ :=
    decode_cases ((fileBytes checkpoint).set i byte) output
  · right
    rw [hread]
    apply payloadBytes_injective htemp h
    rw [← drop_fileBytes, ← hdata, List.drop_set_of_lt hheader, drop_fileBytes]
  · left
    exact hfailure

/-- A file that is cut off or extended is not read, a file with a changed byte is not read as
other rooms or sessions, and a change of the payload is a mismatch of the checksum. -/
theorem decode_damaged (checkpoint output : ServerCheckpoint) (data output' : Bytes)
    (hencode : encode checkpoint output' = (.success, data)) :
  (∀ k, k < data.length → (decode (data.take k) output).1 ≠ .success)
    ∧ (∀ extra, extra ≠ [] → (decode (data ++ extra) output).1 ≠ .success)
    ∧ ∀ (i : Nat) (hi : i < data.length) (byte : UInt8), byte ≠ data[i] →
      ((decode (data.set i byte) output).1 ≠ .success
        ∨ (decode (data.set i byte) output).2.rooms = checkpoint.rooms
          ∧ (decode (data.set i byte) output).2.sessions = checkpoint.sessions)
      ∧ (checkpointHeaderSize ≤ i →
        (decode (data.set i byte) output).1 = .checksumMismatch)
  := by
  obtain ⟨h, heq⟩ | ⟨-, hne, -⟩ := encode_cases checkpoint output'
  swap
  · rw [hencode] at hne
    exact absurd rfl hne
  rw [heq, Prod.mk.injEq] at hencode
  obtain ⟨-, rfl⟩ := hencode
  constructor
  · intro k hk hsuccess
    obtain ⟨temp, htemp, hdata, -⟩ | ⟨hfailure, -⟩ :=
      decode_cases ((fileBytes checkpoint).take k) output
    · have hsame := eq_of_isBeginning htemp h (hdata ▸ List.take_prefix k _)
      have hlen := congrArg List.length (hdata.trans hsame)
      rw [List.length_take] at hlen
      omega
    · apply hfailure hsuccess
  constructor
  · intro extra hextra hsuccess
    obtain ⟨temp, htemp, hdata, -⟩ | ⟨hfailure, -⟩ :=
      decode_cases (fileBytes checkpoint ++ extra) output
    · have hsame := eq_of_isBeginning h htemp ⟨extra, hdata⟩
      rw [← hsame] at hdata
      apply hextra (List.append_right_eq_self.mp hdata)
    · apply hfailure hsuccess
  · intro i hi byte hbyte
    have hmismatch : checkpointHeaderSize ≤ i →
        decode ((fileBytes checkpoint).set i byte) output = (.checksumMismatch, output) := by
      intro hpayload
      rw [decode, decodeFile_set_payload h hi hpayload hbyte]
    constructor
    · obtain hheader | hpayload := Nat.lt_or_ge i checkpointHeaderSize
      · apply decode_set_header h byte hheader output
      · left
        rw [hmismatch hpayload]
        intro hsuccess
        cases hsuccess
    · intro hpayload
      rw [hmismatch hpayload]

/-- The file of a small checkpoint without its last byte, with a byte more, and with a changed
byte of its payload. -/
theorem small_damaged :
  let data := (encode small []).2
  (decode (data.take 137) small).1 ≠ .success
    ∧ (decode (data ++ [0]) small).1 ≠ .success
    ∧ (decode (data.set 64 7) small).1 = .checksumMismatch
  := by
  have hencode : encode small [] = (.success, (encode small []).2) :=
    Prod.ext (by decide +kernel) rfl
  obtain ⟨hcut, hextended, hchanged⟩ := decode_damaged small small _ [] hencode
  have hlen : (encode small []).2.length = 138 := by decide +kernel
  constructor
  · apply hcut
    rw [hlen]
    decide
  constructor
  · apply hextended
    decide
  · have hbyte : (encode small []).2[64]? ≠ some 7 := by decide +kernel
    apply (hchanged 64 (hlen ▸ by decide) 7 _).2 (by decide)
    intro heq
    rw [heq] at hbyte
    apply hbyte (List.getElem?_eq_getElem _)

end CheckpointCodec

end RoomServer
