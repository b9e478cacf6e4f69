import RoomServer.Game.GameState
import RoomServer.Lib.Format

/-!
# The messages of the protocol

A frame carries the type of a message and its payload.  The server reads the payloads of
requests by offsets, and writes those of responses and events field by field.

A client reads the other way round.  `parseJoinOk`, `parseResumeOk`, `parsePlayerJoined`,
`parsePlayerLeft`, `parseChatEvent` and `parseStateSnapshot` take the fields of the messages of
a room off the front of a payload; what the server writes they read back.
-/

namespace RoomServer

inductive MessageType where
  | join
  | leave
  | chat
  | move
  | attack
  | heartbeat
  | resume
  | joinOk
  | playerJoined
  | leaveOk
  | playerLeft
  | chatEvent
  | stateSnapshot
  | error
  | heartbeatAck
  | resumeOk
  deriving DecidableEq, Repr

namespace MessageType

def toU16 : MessageType → UInt16
  | join => 1
  | leave => 2
  | chat => 3
  | move => 4
  | attack => 5
  | heartbeat => 6
  | resume => 7
  | joinOk => 101
  | playerJoined => 102
  | leaveOk => 103
  | playerLeft => 104
  | chatEvent => 105
  | stateSnapshot => 106
  | error => 107
  | heartbeatAck => 108
  | resumeOk => 109

/-- The message type of a number, none when it is not the number of one. -/
def ofU16 (type : UInt16) : Option MessageType :=
  [join, leave, chat, move, attack, heartbeat, resume, joinOk, playerJoined, leaveOk,
    playerLeft, chatEvent, stateSnapshot, error, heartbeatAck, resumeOk].find?
      fun t => t.toU16 == type

@[simp]
theorem ofU16_toU16 (t : MessageType) :
  ofU16 t.toU16 = some t
  := by
  cases t <;> rfl

theorem toU16_of_ofU16 {type : UInt16} {t : MessageType} (h : ofU16 type = some t) :
  type = t.toU16
  := by
  have hfind := List.find?_some h
  apply (eq_of_beq hfind).symm

theorem toU16_inj {t t' : MessageType} : t.toU16 = t'.toU16 ↔ t = t' := by
  constructor
  · intro h
    have hof : ofU16 t.toU16 = ofU16 t'.toU16 := by rw [h]
    rw [ofU16_toU16, ofU16_toU16, Option.some.injEq] at hof
    exact hof
  · rintro rfl
    rfl

end MessageType

inductive ErrorCode where
  | roomNotFound
  | roomFull
  | alreadyInRoom
  | notInRoom
  | invalidPlayerName
  | invalidMessage
  | playerIdExhausted
  | roomNotJoinable
  | roomNotRunning
  | alreadySubmitted
  | invalidToken
  | sessionOnline
  | sessionExpired
  | resumeFailed
  deriving DecidableEq, Repr

def ErrorCode.toU16 : ErrorCode → UInt16
  | roomNotFound => 1
  | roomFull => 2
  | alreadyInRoom => 3
  | notInRoom => 4
  | invalidPlayerName => 5
  | invalidMessage => 6
  | playerIdExhausted => 7
  | roomNotJoinable => 8
  | roomNotRunning => 9
  | alreadySubmitted => 10
  | invalidToken => 11
  | sessionOnline => 12
  | sessionExpired => 13
  | resumeFailed => 14

structure JoinRequest where
  roomId : UInt32
  playerName : Bytes

structure ChatRequest where
  message : Bytes

structure MoveRequest where
  dx : Int32
  dy : Int32

structure AttackRequest where
  targetPlayerId : UInt64

structure HeartbeatRequest where
  seq : UInt64

structure ResumeRequest where
  token : Bytes

structure MemberInfo where
  playerId : UInt64
  playerName : Bytes
  deriving DecidableEq, Repr

namespace Protocol

abbrev maxPlayerNameSize : Nat := 32
abbrev maxChatMessageSize : Nat := 1024
abbrev maxTokenSize : Nat := 128
abbrev maxU16 : Nat := 65535

/-! ### Requests -/

/-- The number in the `size` bytes from `offset` on. -/
def readNumber (data : Bytes) (offset size : Nat) : Option Nat :=
  if offset > data.length ∨ data.length - offset < size then
    none
  else
    some (BigEndian.value ((data.drop offset).take size))

def readU16 (data : Bytes) (offset : Nat) : Option UInt16 :=
  (readNumber data offset 2).map UInt16.ofNat

def readU32 (data : Bytes) (offset : Nat) : Option UInt32 :=
  (readNumber data offset 4).map UInt32.ofNat

def readI32 (data : Bytes) (offset : Nat) : Option Int32 := do
  let rawValue ← readU32 data offset
  if rawValue ≤ 0x7fffffff then
    return rawValue.toInt32
  else
    let magnitude := 0xffffffff - rawValue
    return -1 - magnitude.toInt32

def readU64 (data : Bytes) (offset : Nat) : Option UInt64 :=
  if offset > data.length ∨ data.length - offset < 8 then
    none
  else do
    let high ← readU32 data offset
    let low ← readU32 data (offset + 4)
    return high.toUInt64 <<< 32 ||| low.toUInt64

def decodeJoinRequest (payload : Bytes) : Option JoinRequest := do
  let roomId ← readU32 payload 0
  let nameSize ← readU16 payload 4
  if payload.length - 6 ≠ nameSize.toNat then
    none
  else
    return ⟨roomId, (payload.drop 6).take nameSize.toNat⟩

def decodeLeaveRequest (payload : Bytes) : Bool := payload.isEmpty

def decodeChatRequest (payload : Bytes) : Option ChatRequest := do
  let messageSize ← readU16 payload 0
  if payload.length - 2 ≠ messageSize.toNat then
    none
  else
    return ⟨(payload.drop 2).take messageSize.toNat⟩

def decodeMoveRequest (payload : Bytes) : Option MoveRequest :=
  if payload.length ≠ 8 then
    none
  else do
    let dx ← readI32 payload 0
    let dy ← readI32 payload 4
    return ⟨dx, dy⟩

def decodeAttackRequest (payload : Bytes) : Option AttackRequest :=
  if payload.length ≠ 8 then
    none
  else do
    let targetPlayerId ← readU64 payload 0
    return ⟨targetPlayerId⟩

def decodeHeartbeatRequest (payload : Bytes) : Option HeartbeatRequest :=
  if payload.length ≠ 8 then
    none
  else do
    let seq ← readU64 payload 0
    return ⟨seq⟩

def decodeResumeRequest (payload : Bytes) : Option ResumeRequest := do
  let tokenSize ← readU16 payload 0
  if tokenSize = 0 ∨ tokenSize.toNat > maxTokenSize ∨ payload.length - 2 ≠ tokenSize.toNat then
    none
  else
    return ⟨(payload.drop 2).take tokenSize.toNat⟩

/-! ### Responses and events -/

def appendU16 (value : UInt16) : Bytes := BigEndian.digits 2 value.toNat

def appendU32 (value : UInt32) : Bytes := BigEndian.digits 4 value.toNat

def appendU64 (value : UInt64) : Bytes :=
  let high := (value >>> 32).toUInt32
  let low := (value &&& 0xffffffff).toUInt32
  appendU32 high ++ appendU32 low

def appendI32 (value : Int32) : Bytes := BigEndian.digits 4 value.toUInt32.toNat

/-- A text behind its size, a 16-bit number. -/
def appendText (text : Bytes) : Bytes := appendU16 (UInt16.ofNat text.length) ++ text

def appendMember (member : MemberInfo) : Bytes :=
  appendU64 member.playerId ++ appendText member.playerName

def appendState (state : PlayerGameState) : Bytes :=
  appendU64 state.playerId ++ appendI32 state.x ++ appendI32 state.y ++ appendI32 state.hp

/-- The name of a player has a size in the range of the protocol. -/
def NameFits (name : Bytes) : Prop := name ≠ [] ∧ name.length ≤ maxPlayerNameSize

instance (name : Bytes) : Decidable (NameFits name) := inferInstanceAs (Decidable (_ ∧ _))

def encodeJoinOk (roomId : UInt32) (selfPlayerId : UInt64) (token : Bytes)
    (members : List MemberInfo) : Option Bytes :=
  if token = [] ∨ token.length > maxTokenSize then
    none
  else if members.length > maxU16 then
    none
  else if ¬∀ member ∈ members, NameFits member.playerName then
    none
  else
    some (appendU32 roomId ++ appendU64 selfPlayerId ++ appendText token
      ++ appendU16 (UInt16.ofNat members.length) ++ members.flatMap appendMember)

def roomStateToU16 : Roomstatemachine.States → UInt16
  | .waiting => 0
  | .running => 1
  | .finished => 2

def encodeResumeOk (roomId : UInt32) (selfPlayerId : UInt64)
    (roomState : Roomstatemachine.States) (tickId : UInt64) (members : List MemberInfo)
    (states : List PlayerGameState) : Option Bytes :=
  if members.length > maxU16 ∨ states.length > maxU16 then
    none
  else if ¬∀ member ∈ members, NameFits member.playerName then
    none
  else if ∃ state ∈ states, state.playerId = 0 then
    none
  else
    some (appendU32 roomId ++ appendU64 selfPlayerId ++ appendU16 (roomStateToU16 roomState)
      ++ appendU64 tickId
      ++ appendU16 (UInt16.ofNat members.length) ++ members.flatMap appendMember
      ++ appendU16 (UInt16.ofNat states.length) ++ states.flatMap appendState)

def encodePlayerJoined (roomId : UInt32) (playerId : UInt64) (playerName : Bytes) :
    Option Bytes :=
  if ¬NameFits playerName then
    none
  else
    some (appendU32 roomId ++ appendU64 playerId ++ appendText playerName)

def encodeLeaveOk (roomId : UInt32) : Option Bytes := some (appendU32 roomId)

def encodePlayerLeft (roomId : UInt32) (playerId : UInt64) : Option Bytes :=
  some (appendU32 roomId ++ appendU64 playerId)

def encodeChatEvent (roomId : UInt32) (playerId : UInt64) (message : Bytes) : Option Bytes :=
  if message = [] ∨ message.length > maxChatMessageSize then
    none
  else
    some (appendU32 roomId ++ appendU64 playerId ++ appendText message)

def encodeStateSnapshot (roomId : UInt32) (tickId : UInt64) (states : List PlayerGameState) :
    Option Bytes :=
  if states.length > maxU16 then
    none
  else if ∃ state ∈ states, state.playerId = 0 then
    none
  else
    some (appendU32 roomId ++ appendU64 tickId
      ++ appendU16 (UInt16.ofNat states.length) ++ states.flatMap appendState)

def encodeError (requestType : MessageType) (errorCode : ErrorCode) : Option Bytes :=
  match requestType with
  | .join | .leave | .chat | .move | .attack | .resume =>
    some (appendU16 requestType.toU16 ++ appendU16 errorCode.toU16)
  | _ => none

def encodeHeartbeatAck (seq : UInt64) : Option Bytes := some (appendU64 seq)

/-! ### The sizes of the payloads -/

/-- The bytes that some members take in a payload. -/
def membersSize (members : List MemberInfo) : Nat :=
  (members.map fun member => 10 + member.playerName.length).sum

theorem length_le_membersSize (members : List MemberInfo) :
  10 * members.length ≤ membersSize members
  := by
  induction members with
  | nil => apply Nat.le_refl 0
  | cons member members ih =>
    simp only [membersSize, List.map_cons, List.sum_cons, List.length_cons] at ih ⊢
    omega

/-- A member with a name in the range of the protocol takes 42 bytes at most. -/
theorem membersSize_le {members : List MemberInfo}
    (h : ∀ member ∈ members, NameFits member.playerName) :
  membersSize members ≤ 42 * members.length
  := by
  induction members with
  | nil => apply Nat.le_refl 0
  | cons member members ih =>
    obtain ⟨hmember, hmembers⟩ := List.forall_mem_cons.mp h
    have hlen : member.playerName.length ≤ 32 := hmember.2
    have hrest := ih hmembers
    simp only [membersSize, List.map_cons, List.sum_cons, List.length_cons] at hrest ⊢
    omega

@[simp]
theorem length_appendU16 (value : UInt16) :
  (appendU16 value).length = 2
  := BigEndian.length_digits 2 _

@[simp]
theorem length_appendU32 (value : UInt32) :
  (appendU32 value).length = 4
  := BigEndian.length_digits 4 _

@[simp]
theorem length_appendI32 (value : Int32) :
  (appendI32 value).length = 4
  := BigEndian.length_digits 4 _

@[simp]
theorem length_appendU64 (value : UInt64) :
  (appendU64 value).length = 8
  := by simp [appendU64]

@[simp]
theorem length_appendText (text : Bytes) :
  (appendText text).length = 2 + text.length
  := by simp [appendText]

@[simp]
theorem length_appendMember (member : MemberInfo) :
  (appendMember member).length = 10 + member.playerName.length
  := by
  simp only [appendMember, List.length_append, length_appendU64, length_appendText]
  omega

@[simp]
theorem length_appendState (state : PlayerGameState) :
  (appendState state).length = 20
  := by simp [appendState]

@[simp]
theorem length_flatMap_appendMember (members : List MemberInfo) :
  (members.flatMap appendMember).length = membersSize members
  := by
  rw [List.length_flatMap, membersSize]
  simp only [length_appendMember]

@[simp]
theorem length_flatMap_appendState (states : List PlayerGameState) :
  (states.flatMap appendState).length = 20 * states.length
  := by
  rw [List.length_flatMap]
  simp [Nat.mul_comm]

theorem encodeJoinOk_eq_some_iff {roomId : UInt32} {playerId : UInt64} {token : Bytes}
    {members : List MemberInfo} :
  (∃ payload, encodeJoinOk roomId playerId token members = some payload)
    ↔ (token ≠ [] ∧ token.length ≤ maxTokenSize) ∧ members.length ≤ maxU16
      ∧ ∀ member ∈ members, NameFits member.playerName
  := by
  rw [encodeJoinOk]
  by_cases htoken : token = [] ∨ token.length > maxTokenSize
  · rw [if_pos htoken]
    constructor
    · rintro ⟨_, ⟨⟩⟩
    · rintro ⟨⟨hne, hlen⟩, -⟩
      rcases htoken with h | h
      · exact absurd h hne
      · omega
  rw [if_neg htoken]
  rw [not_or, Nat.not_lt] at htoken
  by_cases hcount : members.length > maxU16
  · rw [if_pos hcount]
    constructor
    · rintro ⟨_, ⟨⟩⟩
    · rintro ⟨-, hlen, -⟩
      omega
  rw [if_neg hcount]
  by_cases hnames : ∀ member ∈ members, NameFits member.playerName
  · rw [if_neg (not_not.mpr hnames)]
    exact ⟨fun _ => ⟨htoken, Nat.not_lt.mp hcount, hnames⟩, fun _ => ⟨_, rfl⟩⟩
  · rw [if_pos hnames]
    constructor
    · rintro ⟨_, ⟨⟩⟩
    · rintro ⟨-, -, h⟩
      exact absurd h hnames

theorem length_encodeJoinOk {roomId : UInt32} {playerId : UInt64} {token : Bytes}
    {members : List MemberInfo} {payload : Bytes}
    (h : encodeJoinOk roomId playerId token members = some payload) :
  payload.length = 16 + token.length + membersSize members
  := by
  rw [encodeJoinOk] at h
  split at h
  · cases h
  split at h
  · cases h
  split at h
  · cases h
  cases h
  simp only [List.length_append, length_appendU32, length_appendU64, length_appendText,
    length_appendU16, length_flatMap_appendMember]
  omega

theorem encodeResumeOk_eq_some_iff {roomId : UInt32} {playerId : UInt64}
    {roomState : Roomstatemachine.States} {tickId : UInt64} {members : List MemberInfo}
    {states : List PlayerGameState} :
  (∃ payload, encodeResumeOk roomId playerId roomState tickId members states = some payload)
    ↔ (members.length ≤ maxU16 ∧ states.length ≤ maxU16)
      ∧ (∀ member ∈ members, NameFits member.playerName)
      ∧ ∀ state ∈ states, state.playerId ≠ 0
  := by
  rw [encodeResumeOk]
  by_cases hcount : members.length > maxU16 ∨ states.length > maxU16
  · rw [if_pos hcount]
    constructor
    · rintro ⟨_, ⟨⟩⟩
    · rintro ⟨h, -⟩
      omega
  rw [if_neg hcount]
  rw [not_or, Nat.not_lt, Nat.not_lt] at hcount
  by_cases hnames : ∀ member ∈ members, NameFits member.playerName
  · rw [if_neg (not_not.mpr hnames)]
    by_cases hzero : ∃ state ∈ states, state.playerId = 0
    · rw [if_pos hzero]
      obtain ⟨state, hstate, hid⟩ := hzero
      constructor
      · rintro ⟨_, ⟨⟩⟩
      · rintro ⟨-, -, h⟩
        exact absurd hid (h state hstate)
    · rw [if_neg hzero]
      constructor
      · rintro -
        exact ⟨hcount, hnames, fun state hstate hid => hzero ⟨state, hstate, hid⟩⟩
      · rintro -
        exact ⟨_, rfl⟩
  · rw [if_pos hnames]
    constructor
    · rintro ⟨_, ⟨⟩⟩
    · rintro ⟨-, h, -⟩
      exact absurd h hnames

theorem length_encodeResumeOk {roomId : UInt32} {playerId : UInt64}
    {roomState : Roomstatemachine.States} {tickId : UInt64} {members : List MemberInfo}
    {states : List PlayerGameState} {payload : Bytes}
    (h : encodeResumeOk roomId playerId roomState tickId members states = some payload) :
  payload.length = 26 + membersSize members + 20 * states.length
  := by
  rw [encodeResumeOk] at h
  split at h
  · cases h
  split at h
  · cases h
  split at h
  · cases h
  cases h
  simp only [List.length_append, length_appendU32, length_appendU64, length_appendU16,
    length_flatMap_appendMember, length_flatMap_appendState]
  omega

/-! ### The client's reading -/

/-- Take a text behind its size. -/
def takeText : Reader Bytes := fun bs => do
  let (size, bs) ← Format.takeU16 bs
  Format.takeBytes size.toNat bs

/-- Take a member of a room. -/
def takeMember : Reader MemberInfo := fun bs => do
  let (playerId, bs) ← Format.takeU64 bs
  let (playerName, bs) ← takeText bs
  return (⟨playerId, playerName⟩, bs)

/-- Take a list of members behind its size. -/
def takeMembers : Reader (List MemberInfo) := fun bs => do
  let (count, bs) ← Format.takeU16 bs
  Format.takeMany takeMember count.toNat bs

/-- The room, the own id, the token and the other members from the payload of a `joinOk`. -/
def parseJoinOk (payload : Bytes) : Option (UInt32 × UInt64 × Bytes × List MemberInfo) := do
  let (roomId, bs) ← Format.takeU32 payload
  let (playerId, bs) ← Format.takeU64 bs
  let (token, bs) ← takeText bs
  let (members, _) ← takeMembers bs
  return (roomId, playerId, token, members)

/-- The room, the own id and the members from the payload of a `resumeOk`. -/
def parseResumeOk (payload : Bytes) : Option (UInt32 × UInt64 × List MemberInfo) := do
  let (roomId, bs) ← Format.takeU32 payload
  let (playerId, bs) ← Format.takeU64 bs
  let (_, bs) ← Format.takeU16 bs
  let (_, bs) ← Format.takeU64 bs
  let (members, _) ← takeMembers bs
  return (roomId, playerId, members)

/-- The room and the new member from the payload of a `playerJoined`. -/
def parsePlayerJoined (payload : Bytes) : Option (UInt32 × MemberInfo) := do
  let (roomId, bs) ← Format.takeU32 payload
  let (member, _) ← takeMember bs
  return (roomId, member)

/-- The room and the player from the payload of a `playerLeft`. -/
def parsePlayerLeft (payload : Bytes) : Option (UInt32 × UInt64) := do
  let (roomId, bs) ← Format.takeU32 payload
  let (playerId, _) ← Format.takeU64 bs
  return (roomId, playerId)

/-- Take the state of a player. -/
def takeState : Reader PlayerGameState := fun bs => do
  let (playerId, bs) ← Format.takeU64 bs
  let (x, bs) ← Format.takeU32 bs
  let (y, bs) ← Format.takeU32 bs
  let (hp, bs) ← Format.takeU32 bs
  return (⟨playerId, x.toInt32, y.toInt32, hp.toInt32⟩, bs)

/-- The room, the speaker and the message from the payload of a `chatEvent`. -/
def parseChatEvent (payload : Bytes) : Option (UInt32 × UInt64 × Bytes) := do
  let (roomId, bs) ← Format.takeU32 payload
  let (playerId, bs) ← Format.takeU64 bs
  let (message, _) ← takeText bs
  return (roomId, playerId, message)

/-- The room, the tick and the players from the payload of a `stateSnapshot`. -/
def parseStateSnapshot (payload : Bytes) :
    Option (UInt32 × UInt64 × List PlayerGameState) := do
  let (roomId, bs) ← Format.takeU32 payload
  let (tickId, bs) ← Format.takeU64 bs
  let (count, bs) ← Format.takeU16 bs
  let (states, _) ← Format.takeMany takeState count.toNat bs
  return (roomId, tickId, states)

/-- The tick from the payload of a `resumeOk`. -/
def parseResumeTick (payload : Bytes) : Option UInt64 := do
  let (_, bs) ← Format.takeU32 payload
  let (_, bs) ← Format.takeU64 bs
  let (_, bs) ← Format.takeU16 bs
  let (tickId, _) ← Format.takeU64 bs
  return tickId

theorem appendU64_eq (value : UInt64) :
  appendU64 value = BigEndian.digits 8 value.toNat
  := by
  have hhigh : (value >>> 32).toUInt32.toNat = value.toNat / 2 ^ 32 := by
    have := value.toNat_lt
    simp only [UInt64.toNat_toUInt32, UInt64.toNat_shiftRight, UInt64.reduceToNat,
      Nat.reduceMod, Nat.shiftRight_eq_div_pow]
    omega
  have hlow : (value &&& 0xffffffff).toUInt32.toNat = value.toNat % 2 ^ 32 := by
    simp only [UInt64.toNat_toUInt32, UInt64.toNat_and, UInt64.reduceToNat]
    rw [Nat.and_two_pow_sub_one_eq_mod _ 32]
    omega
  rw [appendU64, appendU32, appendU32, hhigh, hlow, BigEndian.digits_add 4 4]
  congr 1
  have hsplit := Nat.div_add_mod' value.toNat (256 ^ 4)
  conv_rhs => rw [← hsplit, BigEndian.digits_add_mul]
  rfl

theorem takeU16_append (value : UInt16) (rest : Bytes) :
  Format.takeU16 (appendU16 value ++ rest) = some (value, rest)
  := Format.u16.read_write rest trivial

theorem takeU32_append (value : UInt32) (rest : Bytes) :
  Format.takeU32 (appendU32 value ++ rest) = some (value, rest)
  := Format.u32.read_write rest trivial

theorem takeU64_append (value : UInt64) (rest : Bytes) :
  Format.takeU64 (appendU64 value ++ rest) = some (value, rest)
  := by
  rw [appendU64_eq]
  apply Format.u64.read_write rest trivial

theorem takeText_append {text : Bytes} (h : text.length < 2 ^ 16) (rest : Bytes) :
  takeText (appendText text ++ rest) = some (text, rest)
  := by
  have hlen : (UInt16.ofNat text.length).toNat = text.length := by
    rw [UInt16.toNat_ofNat', Nat.mod_eq_of_lt (by omega)]
  rw [takeText, appendText, List.append_assoc, takeU16_append]
  simp only [Option.bind_eq_bind, Option.bind_some, hlen]
  apply (Format.bytes text.length).read_write rest rfl

theorem takeMember_append {member : MemberInfo} (h : NameFits member.playerName)
    (rest : Bytes) :
  takeMember (appendMember member ++ rest) = some (member, rest)
  := by
  have hlen : member.playerName.length < 2 ^ 16 := Nat.lt_of_le_of_lt h.2 (by decide)
  rw [takeMember, appendMember, List.append_assoc, takeU64_append]
  simp [takeText_append hlen]

theorem takeMembers_append {members : List MemberInfo} (hlen : members.length < 2 ^ 16)
    (h : ∀ member ∈ members, NameFits member.playerName) (rest : Bytes) :
  takeMembers (appendU16 (UInt16.ofNat members.length) ++ (members.flatMap appendMember ++ rest))
    = some (members, rest)
  := by
  have hcount : (UInt16.ofNat members.length).toNat = members.length := by
    rw [UInt16.toNat_ofNat', Nat.mod_eq_of_lt (by omega)]
  rw [takeMembers, takeU16_append]
  simp only [Option.bind_eq_bind, Option.bind_some, hcount]
  apply Format.takeMany_append (fun member hmember => takeMember_append (h member hmember)) rest

/-- A `joinOk` is read back as it was written. -/
theorem parseJoinOk_of_encodeJoinOk {roomId : UInt32} {playerId : UInt64} {token : Bytes}
    {members : List MemberInfo} {payload : Bytes}
    (h : encodeJoinOk roomId playerId token members = some payload) :
  parseJoinOk payload = some (roomId, playerId, token, members)
  := by
  rw [encodeJoinOk] at h
  split at h
  · cases h
  · next htoken =>
    split at h
    · cases h
    · next hcount =>
      split at h
      · cases h
      · next hnames =>
        cases h
        simp only [maxTokenSize, maxU16] at htoken hcount
        have htext : token.length < 2 ^ 16 := by omega
        have hmembers := takeMembers_append (by omega) (not_not.mp hnames) []
        rw [List.append_nil] at hmembers
        simp only [parseJoinOk, List.append_assoc, takeU32_append, takeU64_append,
          takeText_append htext, hmembers, Option.bind_eq_bind, Option.bind_some,
          Option.pure_def]

/-- The members in a `resumeOk` are read back as they were written. -/
theorem parseResumeOk_of_encodeResumeOk {roomId : UInt32} {playerId : UInt64}
    {roomState : Roomstatemachine.States} {tickId : UInt64} {members : List MemberInfo}
    {states : List PlayerGameState} {payload : Bytes}
    (h : encodeResumeOk roomId playerId roomState tickId members states = some payload) :
  parseResumeOk payload = some (roomId, playerId, members)
  := by
  rw [encodeResumeOk] at h
  split at h
  · cases h
  · next hcount =>
    split at h
    · cases h
    · next hnames =>
      split at h
      · cases h
      · cases h
        simp only [maxU16] at hcount
        have hmembers := takeMembers_append (by omega) (not_not.mp hnames)
          (appendU16 (UInt16.ofNat states.length) ++ states.flatMap appendState)
        simp only [parseResumeOk, List.append_assoc, takeU16_append, takeU32_append,
          takeU64_append, hmembers, Option.bind_eq_bind, Option.bind_some, Option.pure_def]

theorem encodePlayerJoined_eq {playerName : Bytes} (h : NameFits playerName) (roomId : UInt32)
    (playerId : UInt64) :
  encodePlayerJoined roomId playerId playerName
    = some (appendU32 roomId ++ appendMember ⟨playerId, playerName⟩)
  := by
  rw [encodePlayerJoined, if_neg (not_not.mpr h), appendMember, List.append_assoc]

/-- A `playerJoined` is read back as it was written. -/
theorem parsePlayerJoined_append (roomId : UInt32) {member : MemberInfo}
    (h : NameFits member.playerName) :
  parsePlayerJoined (appendU32 roomId ++ appendMember member) = some (roomId, member)
  := by
  have hmember := takeMember_append h []
  rw [List.append_nil] at hmember
  simp [parsePlayerJoined, takeU32_append, hmember]

/-- A `playerLeft` is read back as it was written. -/
theorem parsePlayerLeft_append (roomId : UInt32) (playerId : UInt64) :
  parsePlayerLeft (appendU32 roomId ++ appendU64 playerId) = some (roomId, playerId)
  := by
  have hplayer := takeU64_append playerId []
  rw [List.append_nil] at hplayer
  simp [parsePlayerLeft, takeU32_append, hplayer]

theorem takeState_append (state : PlayerGameState) (rest : Bytes) :
  takeState (appendState state ++ rest) = some (state, rest)
  := by
  have hi32 : ∀ (value : Int32) (rest : Bytes),
      Format.takeU32 (appendI32 value ++ rest) = some (value.toUInt32, rest) :=
    fun value rest => takeU32_append value.toUInt32 rest
  simp only [takeState, appendState, List.append_assoc, takeU64_append, hi32,
    Option.bind_eq_bind, Option.bind_some, Option.pure_def, Int32.toInt32_toUInt32]

/-- A `chatEvent` is read back as it was written. -/
theorem parseChatEvent_append (roomId : UInt32) (playerId : UInt64) {message : Bytes}
    (h : message.length ≤ maxChatMessageSize) :
  parseChatEvent (appendU32 roomId ++ appendU64 playerId ++ appendText message)
    = some (roomId, playerId, message)
  := by
  have htext := takeText_append (Nat.lt_of_le_of_lt h (by decide)) []
  rw [List.append_nil] at htext
  simp [parseChatEvent, takeU32_append, takeU64_append, htext]

/-- A `stateSnapshot` is read back as it was written. -/
theorem parseStateSnapshot_of_encodeStateSnapshot {roomId : UInt32} {tickId : UInt64}
    {states : List PlayerGameState} {payload : Bytes}
    (h : encodeStateSnapshot roomId tickId states = some payload) :
  parseStateSnapshot payload = some (roomId, tickId, states)
  := by
  rw [encodeStateSnapshot] at h
  split at h
  · cases h
  next hcount =>
  split at h
  · cases h
  cases h
  have hlen : (UInt16.ofNat states.length).toNat = states.length := by
    simp only [maxU16] at hcount
    rw [UInt16.toNat_ofNat', Nat.mod_eq_of_lt (by omega)]
  have hstates : Format.takeMany takeState states.length (states.flatMap appendState)
      = some (states, []) := by
    have htake := Format.takeMany_append
      (fun (state : PlayerGameState) (_ : state ∈ states) => takeState_append state) []
    rw [List.append_nil] at htake
    exact htake
  simp only [parseStateSnapshot, List.append_assoc, takeU32_append, takeU64_append,
    takeU16_append, Option.bind_eq_bind, Option.bind_some, hlen, hstates, Option.pure_def]

/-- The tick in a `resumeOk` is read back as it was written. -/
theorem parseResumeTick_of_encodeResumeOk {roomId : UInt32} {playerId : UInt64}
    {roomState : Roomstatemachine.States} {tickId : UInt64} {members : List MemberInfo}
    {states : List PlayerGameState} {payload : Bytes}
    (h : encodeResumeOk roomId playerId roomState tickId members states = some payload) :
  parseResumeTick payload = some tickId
  := by
  rw [encodeResumeOk] at h
  split at h
  · cases h
  split at h
  · cases h
  split at h
  · cases h
  cases h
  simp only [parseResumeTick, List.append_assoc, takeU16_append, takeU32_append,
    takeU64_append, Option.bind_eq_bind, Option.bind_some, Option.pure_def]

end Protocol

end RoomServer
