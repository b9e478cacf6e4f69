import RoomServer.Net.Protocol

/-!
# The requests

A decoder of requests reads a string by offsets and writes what it read to an output
argument.  In `Checked` every read of memory, every difference of unsigned numbers and every
conversion of numbers may fault; the decoders there have the output argument as the source
has it.  A `Layout` is a kind of strings that stand for values, and `DecodedBy` says what it
means that a decoder accepts exactly these strings, without a fault.
-/

namespace RoomServer

namespace Protocol

/-! ### Reading by offsets is reading off the front -/

theorem readNumber_eq {size : Nat} (hsize : 0 < size) (data : Bytes) (offset : Nat) :
  readNumber data offset size = (Format.takeNumber size (data.drop offset)).map Prod.fst
  := by
  rw [readNumber, Format.takeNumber, Format.takeBytes, List.length_drop]
  by_cases hshort : data.length - offset < size
  · rw [if_pos (.inr hshort), if_pos hshort]
    rfl
  · rw [if_neg (by omega), if_neg hshort]
    rfl

theorem readU16_eq (data : Bytes) (offset : Nat) :
  readU16 data offset = (Format.takeU16 (data.drop offset)).map Prod.fst
  := by
  rw [readU16, readNumber_eq (by decide), Format.takeU16, Option.map_map, Option.map_map]
  rfl

theorem readU32_eq (data : Bytes) (offset : Nat) :
  readU32 data offset = (Format.takeU32 (data.drop offset)).map Prod.fst
  := by
  rw [readU32, readNumber_eq (by decide), Format.takeU32, Option.map_map, Option.map_map]
  rfl

theorem readU16_eq_some_iff {data : Bytes} {offset : Nat} {value : UInt16} :
  readU16 data offset = some value ↔ ∃ rest, data.drop offset = appendU16 value ++ rest
  := by
  simp only [readU16_eq, Option.map_eq_some_iff, Prod.exists, exists_and_right, exists_eq_right,
    Format.u16.read_eq_some_iff, true_and, appendU16]

theorem readU32_eq_some_iff {data : Bytes} {offset : Nat} {value : UInt32} :
  readU32 data offset = some value ↔ ∃ rest, data.drop offset = appendU32 value ++ rest
  := by
  simp only [readU32_eq, Option.map_eq_some_iff, Prod.exists, exists_and_right, exists_eq_right,
    Format.u32.read_eq_some_iff, true_and, appendU32]

/-- Both branches of the conversion give the number in two's complement. -/
theorem minus_magnitude (rawValue : UInt32) :
  -1 - (0xffffffff - rawValue).toInt32 = rawValue.toInt32
  := by
  have h : ((-1 : Int32) - (0xffffffff - rawValue).toInt32).toUInt32 = rawValue := by
    have hlt := rawValue.toNat_lt
    have hminus : (-1 : Int32).toUInt32 = 0xffffffff := rfl
    rw [Int32.toUInt32_sub, UInt32.toUInt32_toInt32, hminus]
    apply UInt32.toNat_inj.mp
    rw [UInt32.toNat_sub, UInt32.toNat_sub]
    simp only [UInt32.reduceToNat]
    omega
  rw [← Int32.toInt32_toUInt32 (_ - _), h]

theorem readI32_eq (data : Bytes) (offset : Nat) :
  readI32 data offset = (readU32 data offset).map UInt32.toInt32
  := by
  rw [readI32]
  cases readU32 data offset with
  | none => rfl
  | some rawValue =>
    rw [Option.bind_eq_bind, Option.bind_some, Option.map_some]
    split
    · rfl
    · apply congrArg some (minus_magnitude rawValue)

theorem readI32_eq_some_iff {data : Bytes} {offset : Nat} {value : Int32} :
  readI32 data offset = some value ↔ ∃ rest, data.drop offset = appendI32 value ++ rest
  := by
  rw [readI32_eq, Option.map_eq_some_iff]
  constructor
  · rintro ⟨rawValue, hread, rfl⟩
    apply readU32_eq_some_iff.mp hread
  · rintro ⟨rest, hrest⟩
    use value.toUInt32
    constructor
    · apply readU32_eq_some_iff.mpr ⟨rest, hrest⟩
    · apply Int32.toInt32_toUInt32

/-- The two halves of a 64-bit number one behind the other. -/
theorem appendU64_halves (high low : UInt32) :
  appendU64 (high.toUInt64 <<< 32 ||| low.toUInt64) = appendU32 high ++ appendU32 low
  := by
  have hlow := low.toNat_lt
  have hhigh := high.toNat_lt
  have hvalue : (high.toUInt64 <<< 32 ||| low.toUInt64).toNat
      = high.toNat * 256 ^ 4 + low.toNat := by
    have hshift : high.toNat <<< 32 % 2 ^ 64 = high.toNat <<< 32 := by
      apply Nat.mod_eq_of_lt
      rw [Nat.shiftLeft_eq]
      omega
    simp only [UInt64.toNat_or, UInt64.toNat_shiftLeft, UInt32.toNat_toUInt64,
      UInt64.reduceToNat, Nat.reduceMod]
    rw [hshift, ← Nat.shiftLeft_add_eq_or_of_lt hlow, Nat.shiftLeft_eq]
    rfl
  rw [appendU64_eq, hvalue, BigEndian.digits_add 4 4, BigEndian.digits_add_mul]
  have hdiv : (high.toNat * 256 ^ 4 + low.toNat) / 256 ^ 4 = high.toNat := by omega
  rw [hdiv]
  rfl

/-- Every 64-bit number is made of its halves. -/
theorem halves_eq (value : UInt64) :
  (value >>> 32).toUInt32.toUInt64 <<< 32 ||| (value &&& 0xffffffff).toUInt32.toUInt64 = value
  := by
  have h := appendU64_halves (value >>> 32).toUInt32 (value &&& 0xffffffff).toUInt32
  change _ = appendU64 value at h
  rw [appendU64_eq, appendU64_eq] at h
  apply UInt64.toNat_inj.mp
  apply (BigEndian.digits_eq_iff (UInt64.toNat_lt _) (UInt64.toNat_lt _)).mp h

theorem readU64_eq_some_iff {data : Bytes} {offset : Nat} {value : UInt64} :
  readU64 data offset = some value ↔ ∃ rest, data.drop offset = appendU64 value ++ rest
  := by
  constructor
  · intro h
    rw [readU64] at h
    split at h
    · cases h
    · simp only [Option.bind_eq_bind, Option.bind_eq_some_iff, Option.pure_def,
        Option.some.injEq] at h
      obtain ⟨high, hhigh, low, hlow, rfl⟩ := h
      obtain ⟨rest, hrest⟩ := readU32_eq_some_iff.mp hhigh
      obtain ⟨rest', hrest'⟩ := readU32_eq_some_iff.mp hlow
      rw [← List.drop_drop, hrest, List.drop_left' (length_appendU32 high)] at hrest'
      use rest'
      rw [hrest, hrest', appendU64_halves, List.append_assoc]
  · rintro ⟨rest, hrest⟩
    have hlen := congrArg List.length hrest
    rw [List.length_drop, List.length_append, length_appendU64] at hlen
    have hhigh : readU32 data offset = some (value >>> 32).toUInt32 := by
      apply readU32_eq_some_iff.mpr
      use appendU32 (value &&& 0xffffffff).toUInt32 ++ rest
      rw [hrest, appendU64, List.append_assoc]
    have hlow : readU32 data (offset + 4) = some (value &&& 0xffffffff).toUInt32 := by
      apply readU32_eq_some_iff.mpr
      use rest
      rw [← List.drop_drop, hrest, appendU64, List.append_assoc,
        List.drop_left' (length_appendU32 _)]
    rw [readU64, if_neg (by omega), hhigh, hlow]
    simp only [Option.bind_eq_bind, Option.bind_some, Option.pure_def, halves_eq]

/-- A successful read lies in the string. -/
theorem le_length_of_readU16 {data : Bytes} {offset : Nat} {value : UInt16}
    (h : readU16 data offset = some value) :
  offset + 2 ≤ data.length
  := by
  obtain ⟨rest, hrest⟩ := readU16_eq_some_iff.mp h
  have hlen := congrArg List.length hrest
  rw [List.length_drop, List.length_append, length_appendU16] at hlen
  omega

/-! ### The layouts of the requests -/

/-- The strings of one kind: the values that have one, and the string of a value. -/
structure Layout (α : Type) where
  Fits : α → Prop
  write : α → Bytes

/-- The string of a request has a size field of 16 bits before a text. -/
def joinLayout : Layout JoinRequest where
  Fits request := request.playerName.length ≤ maxU16
  write request := appendU32 request.roomId ++ appendText request.playerName

def leaveLayout : Layout Unit where
  Fits _ := True
  write _ := []

def chatLayout : Layout ChatRequest where
  Fits request := request.message.length ≤ maxU16
  write request := appendText request.message

def moveLayout : Layout MoveRequest where
  Fits _ := True
  write request := appendI32 request.dx ++ appendI32 request.dy

def attackLayout : Layout AttackRequest where
  Fits _ := True
  write request := appendU64 request.targetPlayerId

def heartbeatLayout : Layout HeartbeatRequest where
  Fits _ := True
  write request := appendU64 request.seq

def resumeLayout : Layout ResumeRequest where
  Fits request := 1 ≤ request.token.length ∧ request.token.length ≤ maxTokenSize
  write request := appendText request.token

/-- A size and as many bytes behind it as the string has left are a text behind its size. -/
theorem appendText_of_read {data text : Bytes} {offset : Nat} {size : UInt16}
    (hsize : readU16 data offset = some size)
    (hlen : data.length - (offset + 2) = size.toNat)
    (htext : (data.drop (offset + 2)).take size.toNat = text) :
  text.length = size.toNat ∧ data.drop offset = appendText text
  := by
  obtain ⟨rest, hrest⟩ := readU16_eq_some_iff.mp hsize
  have hdrop : data.drop (offset + 2) = rest := by
    rw [← List.drop_drop, hrest, List.drop_left' (length_appendU16 size)]
  have hrestlen : rest.length = size.toNat := by
    rw [← hdrop, List.length_drop, hlen]
  obtain rfl : rest = text := by
    rw [← htext, hdrop, ← hrestlen, List.take_length]
  use hrestlen
  rw [hrest, appendText, hrestlen, UInt16.ofNat_toNat]

/-- A text behind its size is read by its size. -/
theorem read_appendText {data text : Bytes} {offset : Nat} (hfits : text.length ≤ maxU16)
    (hdata : data.drop offset = appendText text) :
  ∃ size, size.toNat = text.length ∧ readU16 data offset = some size
    ∧ data.length - (offset + 2) = size.toNat
    ∧ (data.drop (offset + 2)).take size.toNat = text
  := by
  have htoNat : (UInt16.ofNat text.length).toNat = text.length := by
    rw [UInt16.toNat_ofNat', Nat.mod_eq_of_lt (Nat.lt_succ_of_le hfits)]
  have hdrop : data.drop (offset + 2) = text := by
    rw [← List.drop_drop, hdata, appendText, List.drop_left' (length_appendU16 _)]
  use UInt16.ofNat text.length, htoNat, readU16_eq_some_iff.mpr ⟨text, hdata⟩
  rw [htoNat, hdrop, List.take_length]
  constructor
  · rw [← List.length_drop, hdrop]
  · rfl

theorem decodeJoinRequest_eq_some_iff {payload : Bytes} {request : JoinRequest} :
  decodeJoinRequest payload = some request
    ↔ joinLayout.Fits request ∧ payload = joinLayout.write request
  := by
  obtain ⟨roomId, playerName⟩ := request
  simp only [decodeJoinRequest, joinLayout, Option.bind_eq_bind, Option.bind_eq_some_iff,
    Option.pure_def, Option.ite_none_left_eq_some, Option.some.injEq, not_not,
    JoinRequest.mk.injEq]
  constructor
  · rintro ⟨_, hroom, size, hsize, hlen, rfl, hname⟩
    obtain ⟨rest, hrest⟩ := readU32_eq_some_iff.mp hroom
    obtain ⟨hnamelen, htext⟩ := appendText_of_read hsize hlen hname
    rw [List.drop_zero] at hrest
    rw [hrest, List.drop_left' (length_appendU32 _)] at htext
    rw [hrest, htext]
    constructor
    · rw [hnamelen]
      apply Nat.le_of_lt_succ size.toNat_lt
    · rfl
  · rintro ⟨hfits, rfl⟩
    obtain ⟨size, -, hsize, hlen, hname⟩ :=
      read_appendText hfits (List.drop_left' (length_appendU32 roomId))
    use roomId, readU32_eq_some_iff.mpr ⟨_, rfl⟩, size, hsize, hlen, rfl, hname

theorem decodeLeaveRequest_iff {payload : Bytes} {request : Unit} :
  (if decodeLeaveRequest payload then some () else none) = some request
    ↔ leaveLayout.Fits request ∧ payload = leaveLayout.write request
  := by
  simp [decodeLeaveRequest, leaveLayout]

theorem decodeChatRequest_eq_some_iff {payload : Bytes} {request : ChatRequest} :
  decodeChatRequest payload = some request
    ↔ chatLayout.Fits request ∧ payload = chatLayout.write request
  := by
  obtain ⟨message⟩ := request
  simp only [decodeChatRequest, chatLayout, Option.bind_eq_bind, Option.bind_eq_some_iff,
    Option.pure_def, Option.ite_none_left_eq_some, Option.some.injEq, not_not,
    ChatRequest.mk.injEq]
  constructor
  · rintro ⟨size, hsize, hlen, hmessage⟩
    obtain ⟨hmessagelen, htext⟩ := appendText_of_read hsize hlen hmessage
    constructor
    · rw [hmessagelen]
      apply Nat.le_of_lt_succ size.toNat_lt
    · exact htext
  · rintro ⟨hfits, htext⟩
    obtain ⟨size, -, hread⟩ := read_appendText hfits (payload.drop_zero.trans htext)
    use size, hread.1, hread.2.1, hread.2.2

theorem decodeResumeRequest_eq_some_iff {payload : Bytes} {request : ResumeRequest} :
  decodeResumeRequest payload = some request
    ↔ resumeLayout.Fits request ∧ payload = resumeLayout.write request
  := by
  obtain ⟨token⟩ := request
  simp only [decodeResumeRequest, resumeLayout, Option.bind_eq_bind, Option.bind_eq_some_iff,
    Option.pure_def, Option.ite_none_left_eq_some, Option.some.injEq, not_or, not_not, not_lt,
    ResumeRequest.mk.injEq]
  constructor
  · rintro ⟨size, hsize, ⟨hne, hmax, hlen⟩, htoken⟩
    obtain ⟨htokenlen, htext⟩ := appendText_of_read hsize hlen htoken
    rw [← UInt16.toNat_inj, ← htokenlen] at hne
    rw [← htokenlen] at hmax
    exact ⟨⟨Nat.one_le_iff_ne_zero.mpr hne, hmax⟩, htext⟩
  · rintro ⟨⟨hpos, hmax⟩, htext⟩
    have hfits : token.length ≤ maxU16 := Nat.le_trans hmax (by decide)
    obtain ⟨size, hsizelen, hsize, hlen, htoken⟩ :=
      read_appendText hfits (payload.drop_zero.trans htext)
    refine ⟨size, hsize, ⟨?_, ?_, hlen⟩, htoken⟩
    · rw [← UInt16.toNat_inj, hsizelen]
      apply Nat.one_le_iff_ne_zero.mp hpos
    · rw [hsizelen]
      exact hmax

theorem decodeMoveRequest_eq_some_iff {payload : Bytes} {request : MoveRequest} :
  decodeMoveRequest payload = some request
    ↔ moveLayout.Fits request ∧ payload = moveLayout.write request
  := by
  obtain ⟨dx, dy⟩ := request
  simp only [decodeMoveRequest, moveLayout, Option.ite_none_left_eq_some, not_not,
    Option.bind_eq_bind, Option.bind_eq_some_iff, Option.pure_def, Option.some.injEq,
    MoveRequest.mk.injEq, true_and]
  constructor
  · rintro ⟨hlen, _, hdx, _, hdy, rfl, rfl⟩
    obtain ⟨rest, hrest⟩ := readI32_eq_some_iff.mp hdx
    obtain ⟨rest', hrest'⟩ := readI32_eq_some_iff.mp hdy
    rw [List.drop_zero] at hrest
    rw [hrest, List.drop_left' (length_appendI32 _)] at hrest'
    subst hrest'
    rw [hrest, List.length_append, List.length_append, length_appendI32, length_appendI32] at hlen
    have hnil : rest' = [] := List.length_eq_zero_iff.mp (by omega)
    rw [hrest, hnil, List.append_nil]
  · rintro rfl
    refine ⟨by simp, dx, readI32_eq_some_iff.mpr ⟨appendI32 dy, rfl⟩, dy,
      readI32_eq_some_iff.mpr ⟨[], ?_⟩, rfl, rfl⟩
    rw [List.drop_left' (length_appendI32 dx), List.append_nil]

/-- A string that is a 64-bit number. -/
theorem readU64_whole_iff {payload : Bytes} {value : UInt64} :
  (payload.length = 8 ∧ readU64 payload 0 = some value) ↔ payload = appendU64 value
  := by
  rw [readU64_eq_some_iff, List.drop_zero]
  constructor
  · rintro ⟨hlen, rest, rfl⟩
    rw [List.length_append, length_appendU64] at hlen
    have hnil : rest = [] := List.length_eq_zero_iff.mp (by omega)
    rw [hnil, List.append_nil]
  · rintro rfl
    use length_appendU64 value, []
    rw [List.append_nil]

theorem decodeAttackRequest_eq_some_iff {payload : Bytes} {request : AttackRequest} :
  decodeAttackRequest payload = some request
    ↔ attackLayout.Fits request ∧ payload = attackLayout.write request
  := by
  obtain ⟨targetPlayerId⟩ := request
  simp only [decodeAttackRequest, attackLayout, Option.ite_none_left_eq_some, not_not,
    Option.bind_eq_bind, Option.bind_eq_some_iff, Option.pure_def, Option.some.injEq,
    AttackRequest.mk.injEq, true_and, exists_eq_right, readU64_whole_iff]

theorem decodeHeartbeatRequest_eq_some_iff {payload : Bytes} {request : HeartbeatRequest} :
  decodeHeartbeatRequest payload = some request
    ↔ heartbeatLayout.Fits request ∧ payload = heartbeatLayout.write request
  := by
  obtain ⟨seq⟩ := request
  simp only [decodeHeartbeatRequest, heartbeatLayout, Option.ite_none_left_eq_some, not_not,
    Option.bind_eq_bind, Option.bind_eq_some_iff, Option.pure_def, Option.some.injEq,
    HeartbeatRequest.mk.injEq, true_and, exists_eq_right, readU64_whole_iff]

/-! ### The decoders with their output arguments -/

/-- What a function with an output argument reports and leaves in it. -/
def answer {α : Type} (result : Option α) (out : α) : Bool × α :=
  match result with
  | none => (false, out)
  | some value => (true, value)

namespace Checked

/-- What the execution of a decoder or an encoder may run into. -/
inductive Fault where
  | outOfRange
  | underflow
  | overflow
  | truncation
  deriving DecidableEq, Repr

/-- A difference of unsigned numbers. -/
def minus (a b : Nat) : Except Fault Nat := if b ≤ a then .ok (a - b) else .error .underflow

def minusU32 (a b : UInt32) : Except Fault UInt32 :=
  if b ≤ a then .ok (a - b) else .error .underflow

/-- A difference of signed numbers. -/
def minusI32 (a b : Int32) : Except Fault Int32 :=
  if Int32.minValue.toInt ≤ a.toInt - b.toInt ∧ a.toInt - b.toInt ≤ Int32.maxValue.toInt then
    .ok (a - b)
  else
    .error .overflow

/-- An unsigned number as a signed one. -/
def castI32 (value : UInt32) : Except Fault Int32 :=
  if value ≤ 0x7fffffff then .ok value.toInt32 else .error .overflow

/-- The `size` bytes in the memory of the string from `offset` on. -/
def memcpy (data : Bytes) (offset size : Nat) : Except Fault Bytes :=
  if offset + size ≤ data.length then
    .ok ((data.drop offset).take size)
  else
    .error .outOfRange

/-- `string::substr`, which throws behind the end of the string. -/
def substr (data : Bytes) (offset count : Nat) : Except Fault Bytes :=
  if offset ≤ data.length then
    .ok ((data.drop offset).take count)
  else
    .error .outOfRange

def readNumber (data : Bytes) (offset size : Nat) : Except Fault (Option Nat) := do
  if offset > data.length then
    return none
  else if (← minus data.length offset) < size then
    return none
  else
    let networkValue ← memcpy data offset size
    return some (BigEndian.value networkValue)

def readU16 (data : Bytes) (offset : Nat) (value : UInt16) : Except Fault (Bool × UInt16) := do
  match ← readNumber data offset 2 with
  | none => return (false, value)
  | some networkValue => return (true, UInt16.ofNat networkValue)

def readU32 (data : Bytes) (offset : Nat) (value : UInt32) : Except Fault (Bool × UInt32) := do
  match ← readNumber data offset 4 with
  | none => return (false, value)
  | some networkValue => return (true, UInt32.ofNat networkValue)

def readI32 (data : Bytes) (offset : Nat) (value : Int32) : Except Fault (Bool × Int32) := do
  let (success, rawValue) ← readU32 data offset 0
  if !success then
    return (false, value)
  else if rawValue ≤ 0x7fffffff then
    let value ← castI32 rawValue
    return (true, value)
  else
    let magnitude ← minusU32 0xffffffff rawValue
    let magnitude ← castI32 magnitude
    let value ← minusI32 (-1) magnitude
    return (true, value)

def readU64 (data : Bytes) (offset : Nat) (value : UInt64) : Except Fault (Bool × UInt64) := do
  if offset > data.length then
    return (false, value)
  else if (← minus data.length offset) < 8 then
    return (false, value)
  else
    let (success, high) ← readU32 data offset 0
    if !success then
      return (false, value)
    else
      let (success, low) ← readU32 data (offset + 4) 0
      if !success then
        return (false, value)
      else
        return (true, high.toUInt64 <<< 32 ||| low.toUInt64)

def decodeJoinRequest (payload : Bytes) (request : JoinRequest) :
    Except Fault (Bool × JoinRequest) := do
  let (success, roomId) ← readU32 payload 0 0
  if !success then
    return (false, request)
  else
    let (success, nameSize) ← readU16 payload 4 0
    if !success then
      return (false, request)
    else if (← minus payload.length 6) ≠ nameSize.toNat then
      return (false, request)
    else
      let playerName ← substr payload 6 nameSize.toNat
      return (true, ⟨roomId, playerName⟩)

/-- There is nothing to write for a leave. -/
def decodeLeaveRequest (payload : Bytes) (request : Unit) : Except Fault (Bool × Unit) :=
  return (payload.isEmpty, request)

def decodeChatRequest (payload : Bytes) (request : ChatRequest) :
    Except Fault (Bool × ChatRequest) := do
  let (success, messageSize) ← readU16 payload 0 0
  if !success then
    return (false, request)
  else if (← minus payload.length 2) ≠ messageSize.toNat then
    return (false, request)
  else
    let message ← substr payload 2 messageSize.toNat
    return (true, ⟨message⟩)

def decodeMoveRequest (payload : Bytes) (request : MoveRequest) :
    Except Fault (Bool × MoveRequest) := do
  if payload.length ≠ 8 then
    return (false, request)
  else
    let (success, dx) ← readI32 payload 0 0
    if !success then
      return (false, request)
    else
      let (success, dy) ← readI32 payload 4 0
      if !success then
        return (false, request)
      else
        return (true, ⟨dx, dy⟩)

def decodeAttackRequest (payload : Bytes) (request : AttackRequest) :
    Except Fault (Bool × AttackRequest) := do
  if payload.length ≠ 8 then
    return (false, request)
  else
    let (success, targetPlayerId) ← readU64 payload 0 0
    if !success then
      return (false, request)
    else
      return (true, ⟨targetPlayerId⟩)

def decodeHeartbeatRequest (payload : Bytes) (request : HeartbeatRequest) :
    Except Fault (Bool × HeartbeatRequest) := do
  if payload.length ≠ 8 then
    return (false, request)
  else
    let (success, seq) ← readU64 payload 0 0
    if !success then
      return (false, request)
    else
      return (true, ⟨seq⟩)

def decodeResumeRequest (payload : Bytes) (request : ResumeRequest) :
    Except Fault (Bool × ResumeRequest) := do
  let (success, tokenSize) ← readU16 payload 0 0
  if !success then
    return (false, request)
  else if tokenSize = 0 ∨ tokenSize.toNat > maxTokenSize then
    return (false, request)
  else if (← minus payload.length 2) ≠ tokenSize.toNat then
    return (false, request)
  else
    let token ← substr payload 2 tokenSize.toNat
    return (true, ⟨token⟩)

/-! ### No read, difference or conversion faults -/

/-- A step that does not fault is followed by the rest. -/
@[simp]
theorem ok_bind {α β : Type} (a : α) (f : α → Except Fault β) :
  (Except.ok a >>= f) = f a
  := rfl

theorem minus_eq_ok {a b : Nat} (h : b ≤ a) :
  minus a b = .ok (a - b)
  := if_pos h

theorem minusU32_eq_ok {a b : UInt32} (h : b ≤ a) :
  minusU32 a b = .ok (a - b)
  := if_pos h

theorem castI32_eq_ok {value : UInt32} (h : value ≤ 0x7fffffff) :
  castI32 value = .ok value.toInt32
  := if_pos h

theorem substr_eq_ok {data : Bytes} {offset : Nat} (h : offset ≤ data.length) (count : Nat) :
  substr data offset count = .ok ((data.drop offset).take count)
  := if_pos h

theorem readNumber_eq (data : Bytes) (offset size : Nat) :
  readNumber data offset size = .ok (Protocol.readNumber data offset size)
  := by
  rw [readNumber, Protocol.readNumber]
  by_cases hoffset : offset > data.length
  · rw [if_pos hoffset, if_pos (.inl hoffset)]
    rfl
  rw [if_neg hoffset, minus_eq_ok (Nat.not_lt.mp hoffset)]
  by_cases hsize : data.length - offset < size
  · rw [if_pos (.inr hsize)]
    apply if_pos hsize
  · rw [if_neg (not_or.mpr ⟨hoffset, hsize⟩)]
    apply (if_neg hsize).trans
    rw [memcpy, if_pos (by omega)]
    rfl

theorem readU16_eq (data : Bytes) (offset : Nat) (value : UInt16) :
  readU16 data offset value = .ok (answer (Protocol.readU16 data offset) value)
  := by
  rw [readU16, readNumber_eq, Protocol.readU16]
  cases Protocol.readNumber data offset 2 with
  | none => rfl
  | some networkValue => rfl

theorem readU32_eq (data : Bytes) (offset : Nat) (value : UInt32) :
  readU32 data offset value = .ok (answer (Protocol.readU32 data offset) value)
  := by
  rw [readU32, readNumber_eq, Protocol.readU32]
  cases Protocol.readNumber data offset 4 with
  | none => rfl
  | some networkValue => rfl

/-- The signed number of an unsigned one that is small enough is not negative. -/
theorem toInt_toInt32 {value : UInt32} (h : value ≤ 0x7fffffff) :
  value.toInt32.toInt = value.toNat
  := by
  have hle : value.toNat ≤ 0x7fffffff := UInt32.le_iff_toNat_le.mp h
  have hofNat : value.toInt32 = Int32.ofNat value.toNat := by
    rw [← UInt32.toInt32_ofNat', UInt32.ofNat_toNat]
  rw [hofNat, Int32.toInt_ofNat_of_lt (by omega)]

/-- The difference that makes a number that is not negative a negative one. -/
theorem minusI32_eq_ok {value : UInt32} (h : value ≤ 0x7fffffff) :
  minusI32 (-1) value.toInt32 = .ok (-1 - value.toInt32)
  := by
  have hle : value.toNat ≤ 0x7fffffff := UInt32.le_iff_toNat_le.mp h
  have hone : (-1 : Int32).toInt = -1 := rfl
  rw [minusI32, if_pos]
  rw [toInt_toInt32 h, Int32.toInt_minValue, Int32.toInt_maxValue, hone]
  omega

/-- A negative number is told by its distance from `-1`, which is small enough for the
conversion and for the difference. -/
theorem readI32_eq (data : Bytes) (offset : Nat) (value : Int32) :
  readI32 data offset value = .ok (answer (Protocol.readI32 data offset) value)
  := by
  rw [readI32, readU32_eq, Protocol.readI32]
  cases Protocol.readU32 data offset with
  | none => rfl
  | some rawValue =>
    simp only [answer, ok_bind, Bool.not_true, Bool.false_eq_true, if_false, Option.bind_eq_bind,
      Option.bind_some]
    by_cases hsmall : rawValue ≤ 0x7fffffff
    · rw [if_pos hsmall, if_pos hsmall, castI32_eq_ok hsmall]
      rfl
    · have hmax : rawValue ≤ 0xffffffff := by
        rw [UInt32.le_iff_toNat_le]
        apply Nat.le_of_lt_succ rawValue.toNat_lt
      have hmagnitude : 0xffffffff - rawValue ≤ 0x7fffffff := by
        rw [UInt32.le_iff_toNat_le] at hsmall ⊢
        rw [UInt32.toNat_sub_of_le _ _ hmax]
        simp only [UInt32.reduceToNat] at hsmall ⊢
        omega
      rw [if_neg hsmall, if_neg hsmall, minusU32_eq_ok hmax, ok_bind, castI32_eq_ok hmagnitude,
        ok_bind, minusI32_eq_ok hmagnitude]
      rfl

theorem readU64_eq (data : Bytes) (offset : Nat) (value : UInt64) :
  readU64 data offset value = .ok (answer (Protocol.readU64 data offset) value)
  := by
  rw [readU64, Protocol.readU64]
  by_cases hoffset : offset > data.length
  · rw [if_pos hoffset, if_pos (.inl hoffset)]
    rfl
  rw [if_neg hoffset, minus_eq_ok (Nat.not_lt.mp hoffset), ok_bind]
  by_cases hsize : data.length - offset < 8
  · rw [if_pos hsize, if_pos (.inr hsize)]
    rfl
  rw [if_neg hsize, if_neg (not_or.mpr ⟨hoffset, hsize⟩), readU32_eq, ok_bind]
  cases Protocol.readU32 data offset with
  | none => rfl
  | some high =>
    simp only [answer, Bool.not_true, Bool.false_eq_true, if_false, readU32_eq, ok_bind,
      Option.bind_eq_bind, Option.bind_some]
    cases Protocol.readU32 data (offset + 4) with
    | none => rfl
    | some low => rfl

theorem decodeJoinRequest_eq (payload : Bytes) (request : JoinRequest) :
  decodeJoinRequest payload request = .ok (answer (Protocol.decodeJoinRequest payload) request)
  := by
  rw [decodeJoinRequest, Protocol.decodeJoinRequest, readU32_eq]
  cases Protocol.readU32 payload 0 with
  | none => rfl
  | some roomId =>
    simp only [answer, Bool.not_true, Bool.false_eq_true, if_false, readU16_eq, ok_bind,
      Option.bind_eq_bind, Option.bind_some]
    cases hsize : Protocol.readU16 payload 4 with
    | none => rfl
    | some nameSize =>
      have hlen := le_length_of_readU16 hsize
      simp only [Bool.not_true, Bool.false_eq_true, if_false, Option.bind_some,
        minus_eq_ok hlen, substr_eq_ok hlen, ok_bind]
      split
      · rfl
      · rfl

theorem decodeLeaveRequest_eq (payload : Bytes) (request : Unit) :
  decodeLeaveRequest payload request
    = .ok (answer (if Protocol.decodeLeaveRequest payload then some () else none) request)
  := by
  rw [decodeLeaveRequest, Protocol.decodeLeaveRequest]
  cases payload.isEmpty with
  | false => rfl
  | true => rfl

theorem decodeChatRequest_eq (payload : Bytes) (request : ChatRequest) :
  decodeChatRequest payload request = .ok (answer (Protocol.decodeChatRequest payload) request)
  := by
  rw [decodeChatRequest, Protocol.decodeChatRequest, readU16_eq]
  cases hsize : Protocol.readU16 payload 0 with
  | none => rfl
  | some messageSize =>
    have hlen := le_length_of_readU16 hsize
    simp only [answer, Bool.not_true, Bool.false_eq_true, if_false, ok_bind, Option.bind_eq_bind,
      Option.bind_some, minus_eq_ok hlen, substr_eq_ok hlen]
    split
    · rfl
    · rfl

theorem decodeResumeRequest_eq (payload : Bytes) (request : ResumeRequest) :
  decodeResumeRequest payload request
    = .ok (answer (Protocol.decodeResumeRequest payload) request)
  := by
  rw [decodeResumeRequest, Protocol.decodeResumeRequest, readU16_eq]
  cases hsize : Protocol.readU16 payload 0 with
  | none => rfl
  | some tokenSize =>
    have hlen := le_length_of_readU16 hsize
    simp only [answer, Bool.not_true, Bool.false_eq_true, if_false, ok_bind, Option.bind_eq_bind,
      Option.bind_some, minus_eq_ok hlen, substr_eq_ok hlen, ← or_assoc]
    by_cases hsize : tokenSize = 0 ∨ tokenSize.toNat > maxTokenSize
    · rw [if_pos hsize, if_pos (.inl hsize)]
      rfl
    rw [if_neg hsize]
    by_cases hleft : payload.length - 2 = tokenSize.toNat
    · rw [if_neg (not_not.mpr hleft), if_neg (not_or.mpr ⟨hsize, not_not.mpr hleft⟩)]
      rfl
    · rw [if_pos hleft, if_pos (.inr hleft)]
      rfl

theorem decodeMoveRequest_eq (payload : Bytes) (request : MoveRequest) :
  decodeMoveRequest payload request = .ok (answer (Protocol.decodeMoveRequest payload) request)
  := by
  rw [decodeMoveRequest, Protocol.decodeMoveRequest]
  split
  · rfl
  rw [readI32_eq]
  cases Protocol.readI32 payload 0 with
  | none => rfl
  | some dx =>
    simp only [answer, Bool.not_true, Bool.false_eq_true, if_false, readI32_eq, ok_bind,
      Option.bind_eq_bind, Option.bind_some]
    cases Protocol.readI32 payload 4 with
    | none => rfl
    | some dy => rfl

theorem decodeAttackRequest_eq (payload : Bytes) (request : AttackRequest) :
  decodeAttackRequest payload request
    = .ok (answer (Protocol.decodeAttackRequest payload) request)
  := by
  rw [decodeAttackRequest, Protocol.decodeAttackRequest]
  split
  · rfl
  rw [readU64_eq]
  cases Protocol.readU64 payload 0 with
  | none => rfl
  | some targetPlayerId => rfl

theorem decodeHeartbeatRequest_eq (payload : Bytes) (request : HeartbeatRequest) :
  decodeHeartbeatRequest payload request
    = .ok (answer (Protocol.decodeHeartbeatRequest payload) request)
  := by
  rw [decodeHeartbeatRequest, Protocol.decodeHeartbeatRequest]
  split
  · rfl
  rw [readU64_eq]
  cases Protocol.readU64 payload 0 with
  | none => rfl
  | some seq => rfl

end Checked

/-! ### What the decoders accept -/

/-- A decoder accepts exactly the strings of a layout: it never faults, it reports success
exactly for the strings of values and has then written the value, it leaves its output argument
alone otherwise, and no two strings are decoded alike. -/
structure Layout.DecodedBy {α : Type} (L : Layout α)
    (decode : Bytes → α → Except Checked.Fault (Bool × α)) : Prop where
  total : ∀ payload out, ∃ success value, decode payload out = .ok (success, value)
  accepts : ∀ payload out value,
    decode payload out = .ok (true, value) ↔ L.Fits value ∧ payload = L.write value
  rejects : ∀ payload out value, decode payload out = .ok (false, value)
    ↔ value = out ∧ ∀ value', L.Fits value' → payload ≠ L.write value'
  injective : ∀ payload payload' out out' value, decode payload out = .ok (true, value) →
    decode payload' out' = .ok (true, value) → payload = payload'

/-- A decoder accepts exactly the strings of a layout when it answers as a partial function
does that is defined exactly on these. -/
theorem Layout.decodedBy_of_answer {α : Type} {L : Layout α}
    {decode : Bytes → α → Except Checked.Fault (Bool × α)} {read : Bytes → Option α}
    (hdecode : ∀ payload out, decode payload out = .ok (answer (read payload) out))
    (hread : ∀ payload value, read payload = some value ↔ L.Fits value ∧ payload = L.write value) :
  L.DecodedBy decode
  := by
  have haccepts : ∀ payload out value,
      decode payload out = .ok (true, value) ↔ L.Fits value ∧ payload = L.write value := by
    intro payload out value
    rw [hdecode, ← hread]
    cases read payload with
    | none => simp [answer]
    | some value' => simp [answer]
  constructor
  case total =>
    intro payload out
    use (answer (read payload) out).1, (answer (read payload) out).2
    apply hdecode
  case accepts => exact haccepts
  case rejects =>
    intro payload out value
    rw [hdecode]
    cases hpayload : read payload with
    | none =>
      have hnot : ∀ value', L.Fits value' → payload ≠ L.write value' := by
        intro value' hfits heq
        rw [(hread payload value').mpr ⟨hfits, heq⟩] at hpayload
        cases hpayload
      simp only [answer, Except.ok.injEq, Prod.mk.injEq, true_and]
      exact ⟨fun h => ⟨h.symm, hnot⟩, fun h => h.1.symm⟩
    | some value' =>
      obtain ⟨hfits, heq⟩ := (hread payload value').mp hpayload
      constructor
      · intro h
        cases h
      · rintro ⟨-, hnot⟩
        exact absurd heq (hnot value' hfits)
  case injective =>
    intro payload payload' out out' value h h'
    rw [((haccepts _ _ _).mp h).2, ((haccepts _ _ _).mp h').2]

/-- The decoders of the seven requests accept exactly the documented layouts: `u32` and a text;
nothing; a text; two `i32`; a `u64`; a `u64`; a text of 1 to 128 bytes.  A text is a `u16`, the
number of its bytes, and the bytes. -/
theorem requests_decodedBy :
  joinLayout.DecodedBy Checked.decodeJoinRequest
    ∧ leaveLayout.DecodedBy Checked.decodeLeaveRequest
    ∧ chatLayout.DecodedBy Checked.decodeChatRequest
    ∧ moveLayout.DecodedBy Checked.decodeMoveRequest
    ∧ attackLayout.DecodedBy Checked.decodeAttackRequest
    ∧ heartbeatLayout.DecodedBy Checked.decodeHeartbeatRequest
    ∧ resumeLayout.DecodedBy Checked.decodeResumeRequest
  := by
  refine ⟨?_, ?_, ?_, ?_, ?_, ?_, ?_⟩
  · apply Layout.decodedBy_of_answer Checked.decodeJoinRequest_eq
    intro payload request
    apply decodeJoinRequest_eq_some_iff
  · apply Layout.decodedBy_of_answer Checked.decodeLeaveRequest_eq
    intro payload request
    apply decodeLeaveRequest_iff
  · apply Layout.decodedBy_of_answer Checked.decodeChatRequest_eq
    intro payload request
    apply decodeChatRequest_eq_some_iff
  · apply Layout.decodedBy_of_answer Checked.decodeMoveRequest_eq
    intro payload request
    apply decodeMoveRequest_eq_some_iff
  · apply Layout.decodedBy_of_answer Checked.decodeAttackRequest_eq
    intro payload request
    apply decodeAttackRequest_eq_some_iff
  · apply Layout.decodedBy_of_answer Checked.decodeHeartbeatRequest_eq
    intro payload request
    apply decodeHeartbeatRequest_eq_some_iff
  · apply Layout.decodedBy_of_answer Checked.decodeResumeRequest_eq
    intro payload request
    apply decodeResumeRequest_eq_some_iff

end Protocol

end RoomServer
