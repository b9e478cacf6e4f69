import RoomServer.Net.Requests

/-!
# The responses and events

An encoder clears its output argument and writes a payload to it, or refuses.  In `Checked`
the casts of counts and lengths to 16 bits fault when they lose something.  A client takes the
fields off the front of a payload; `wholly` asks that nothing is left behind them.
`UniquelyDecoded` says what it means that a reader recovers whatever an encoder wrote.
-/

namespace RoomServer

namespace Protocol

/-! ### Readers of whole payloads -/

/-- Read a payload of which nothing may be left. -/
def wholly {α : Type} (read : Reader α) (payload : Bytes) : Option α :=
  match read payload with
  | some (a, []) => some a
  | _ => none

/-- A reader that leaves nothing behind reads the whole payload. -/
theorem wholly_of_read {α : Type} {read : Reader α} {payload : Bytes} {a : α}
    (h : read payload = some (a, [])) :
  wholly read payload = some a
  := by
  simp only [wholly, h]

/-- Take a list of states behind its size. -/
def takeStates : Reader (List PlayerGameState) := fun bs => do
  let (count, bs) ← Format.takeU16 bs
  Format.takeMany takeState count.toNat bs

/-- Take the state of a room. -/
def takeRoomState : Reader Roomstatemachine.States := fun bs => do
  let (state, bs) ← Format.takeU16 bs
  match state with
  | 0 => return (.waiting, bs)
  | 1 => return (.running, bs)
  | 2 => return (.finished, bs)
  | _ => none

/-- What is written to a `joinOk`. -/
structure JoinOk where
  roomId : UInt32
  selfPlayerId : UInt64
  token : Bytes
  members : List MemberInfo

/-- What is written to a `resumeOk`. -/
structure ResumeOk where
  roomId : UInt32
  selfPlayerId : UInt64
  roomState : Roomstatemachine.States
  tickId : UInt64
  members : List MemberInfo
  states : List PlayerGameState

/-- What is written to a `stateSnapshot`. -/
structure StateSnapshot where
  roomId : UInt32
  tickId : UInt64
  states : List PlayerGameState

/-- What is written to a `playerJoined`. -/
structure PlayerJoined where
  roomId : UInt32
  playerId : UInt64
  playerName : Bytes

/-- What is written to a `chatEvent`. -/
structure ChatEvent where
  roomId : UInt32
  playerId : UInt64
  message : Bytes

def takeJoinOk : Reader JoinOk := fun bs => do
  let (roomId, bs) ← Format.takeU32 bs
  let (selfPlayerId, bs) ← Format.takeU64 bs
  let (token, bs) ← takeText bs
  let (members, bs) ← takeMembers bs
  return (⟨roomId, selfPlayerId, token, members⟩, bs)

def takeResumeOk : Reader ResumeOk := fun bs => do
  let (roomId, bs) ← Format.takeU32 bs
  let (selfPlayerId, bs) ← Format.takeU64 bs
  let (roomState, bs) ← takeRoomState bs
  let (tickId, bs) ← Format.takeU64 bs
  let (members, bs) ← takeMembers bs
  let (states, bs) ← takeStates bs
  return (⟨roomId, selfPlayerId, roomState, tickId, members, states⟩, bs)

def takeStateSnapshot : Reader StateSnapshot := fun bs => do
  let (roomId, bs) ← Format.takeU32 bs
  let (tickId, bs) ← Format.takeU64 bs
  let (states, bs) ← takeStates bs
  return (⟨roomId, tickId, states⟩, bs)

def takePlayerJoined : Reader PlayerJoined := fun bs => do
  let (roomId, bs) ← Format.takeU32 bs
  let (playerId, bs) ← Format.takeU64 bs
  let (playerName, bs) ← takeText bs
  return (⟨roomId, playerId, playerName⟩, bs)

def takeChatEvent : Reader ChatEvent := fun bs => do
  let (roomId, bs) ← Format.takeU32 bs
  let (playerId, bs) ← Format.takeU64 bs
  let (message, bs) ← takeText bs
  return (⟨roomId, playerId, message⟩, bs)

/-- States behind their size are taken back, whatever follows them. -/
theorem takeStates_append {states : List PlayerGameState} (hlen : states.length ≤ maxU16)
    (rest : Bytes) :
  takeStates (appendU16 (UInt16.ofNat states.length) ++ (states.flatMap appendState ++ rest))
    = some (states, rest)
  := by
  have hcount : (UInt16.ofNat states.length).toNat = states.length := by
    rw [UInt16.toNat_ofNat', Nat.mod_eq_of_lt (Nat.lt_succ_of_le hlen)]
  rw [takeStates, takeU16_append]
  simp only [Option.bind_eq_bind, Option.bind_some, hcount]
  apply Format.takeMany_append (fun state _ => takeState_append state) rest

/-- The number of a state of a room tells the state. -/
theorem takeRoomState_append (state : Roomstatemachine.States) (rest : Bytes) :
  takeRoomState (appendU16 (roomStateToU16 state) ++ rest) = some (state, rest)
  := by
  rw [takeRoomState, takeU16_append]
  cases state with
  | waiting => rfl
  | running => rfl
  | finished => rfl

/-- What is encoded is within the limits, so that the sizes written before it are exact. -/
theorem takeJoinOk_of_encodeJoinOk {reply : JoinOk} {payload : Bytes}
    (h : encodeJoinOk reply.roomId reply.selfPlayerId reply.token reply.members = some payload) :
  takeJoinOk payload = some (reply, [])
  := by
  obtain ⟨⟨-, htoken⟩, hcount, hnames⟩ := encodeJoinOk_eq_some_iff.mp ⟨payload, h⟩
  rw [encodeJoinOk, if_neg, if_neg (Nat.not_lt.mpr hcount), if_neg (not_not.mpr hnames)] at h
  · cases h
    have htext : reply.token.length < 2 ^ 16 := Nat.lt_of_le_of_lt htoken (by decide)
    have hmembers := takeMembers_append (Nat.lt_succ_of_le hcount) hnames []
    rw [List.append_nil] at hmembers
    simp only [takeJoinOk, List.append_assoc, takeU32_append, takeU64_append,
      takeText_append htext, hmembers, Option.bind_eq_bind, Option.bind_some, Option.pure_def]
  · obtain ⟨hne, hlen⟩ := (encodeJoinOk_eq_some_iff.mp ⟨payload, h⟩).1
    apply not_or.mpr ⟨hne, Nat.not_lt.mpr hlen⟩

/-- The members end where their size says, so that the size of the states is found behind them. -/
theorem takeResumeOk_of_encodeResumeOk {reply : ResumeOk} {payload : Bytes}
    (h : encodeResumeOk reply.roomId reply.selfPlayerId reply.roomState reply.tickId
      reply.members reply.states = some payload) :
  takeResumeOk payload = some (reply, [])
  := by
  obtain ⟨⟨hmembers, hstates⟩, hnames, hzero⟩ := encodeResumeOk_eq_some_iff.mp ⟨payload, h⟩
  rw [encodeResumeOk, if_neg (by omega), if_neg (not_not.mpr hnames), if_neg] at h
  · cases h
    have htakeMembers := takeMembers_append (Nat.lt_succ_of_le hmembers) hnames
      (appendU16 (UInt16.ofNat reply.states.length) ++ reply.states.flatMap appendState)
    have htakeStates := takeStates_append hstates []
    rw [List.append_nil] at htakeStates
    simp only [takeResumeOk, List.append_assoc, takeU32_append, takeU64_append,
      takeRoomState_append, htakeMembers, htakeStates, Option.bind_eq_bind, Option.bind_some,
      Option.pure_def]
  · rintro ⟨state, hstate, hid⟩
    apply hzero state hstate hid

/-- The states are the last thing in the payload. -/
theorem takeStateSnapshot_of_encodeStateSnapshot {event : StateSnapshot} {payload : Bytes}
    (h : encodeStateSnapshot event.roomId event.tickId event.states = some payload) :
  takeStateSnapshot payload = some (event, [])
  := by
  rw [encodeStateSnapshot] at h
  split at h
  · cases h
  next hcount =>
  split at h
  · cases h
  cases h
  have hstates := takeStates_append (Nat.not_lt.mp hcount) []
  rw [List.append_nil] at hstates
  simp only [takeStateSnapshot, List.append_assoc, takeU32_append, takeU64_append, hstates,
    Option.bind_eq_bind, Option.bind_some, Option.pure_def]

/-- A name that is encoded has a length of 16 bits. -/
theorem takePlayerJoined_of_encodePlayerJoined {event : PlayerJoined} {payload : Bytes}
    (h : encodePlayerJoined event.roomId event.playerId event.playerName = some payload) :
  takePlayerJoined payload = some (event, [])
  := by
  rw [encodePlayerJoined] at h
  split at h
  · cases h
  next hname =>
  cases h
  have hfits : event.playerName.length < 2 ^ 16 :=
    Nat.lt_of_le_of_lt (not_not.mp hname).2 (by decide)
  have htext := takeText_append hfits []
  rw [List.append_nil] at htext
  simp only [takePlayerJoined, List.append_assoc, takeU32_append, takeU64_append, htext,
    Option.bind_eq_bind, Option.bind_some, Option.pure_def]

/-- A message that is encoded has a length of 16 bits. -/
theorem takeChatEvent_of_encodeChatEvent {event : ChatEvent} {payload : Bytes}
    (h : encodeChatEvent event.roomId event.playerId event.message = some payload) :
  takeChatEvent payload = some (event, [])
  := by
  rw [encodeChatEvent] at h
  split at h
  · cases h
  next hmessage =>
  cases h
  rw [not_or, Nat.not_lt] at hmessage
  have hfits : event.message.length < 2 ^ 16 := Nat.lt_of_le_of_lt hmessage.2 (by decide)
  have htext := takeText_append hfits []
  rw [List.append_nil] at htext
  simp only [takeChatEvent, List.append_assoc, takeU32_append, takeU64_append, htext,
    Option.bind_eq_bind, Option.bind_some, Option.pure_def]

/-! ### The encoders with their output arguments -/

namespace Checked

/-- A count or a length as a number of 16 bits. -/
def castU16 (n : Nat) : Except Fault UInt16 :=
  if n ≤ maxU16 then .ok (UInt16.ofNat n) else .error .truncation

/-- The loop over the members in `encodeJoinOk` and `encodeResumeOk`. -/
def appendMembers (data : Bytes) (members : List MemberInfo) : Except Fault Bytes :=
  members.foldlM (fun data member => do
    let nameSize ← castU16 member.playerName.length
    return data ++ appendU64 member.playerId ++ appendU16 nameSize ++ member.playerName) data

/-- The loop over the states in `encodeResumeOk` and `encodeStateSnapshot`. -/
def appendStates (data : Bytes) (states : List PlayerGameState) : Bytes :=
  states.foldl (fun data state =>
    data ++ appendU64 state.playerId ++ appendI32 state.x ++ appendI32 state.y
      ++ appendI32 state.hp) data

def encodeJoinOk (reply : JoinOk) (_payload : Bytes) : Except Fault (Bool × Bytes) := do
  let payload := []
  if reply.token = [] ∨ reply.token.length > maxTokenSize then
    return (false, payload)
  else if reply.members.length > maxU16 then
    return (false, payload)
  else if ¬∀ member ∈ reply.members, NameFits member.playerName then
    return (false, payload)
  else
    let data := appendU32 reply.roomId ++ appendU64 reply.selfPlayerId
    let tokenSize ← castU16 reply.token.length
    let data := data ++ appendU16 tokenSize ++ reply.token
    let count ← castU16 reply.members.length
    let data ← appendMembers (data ++ appendU16 count) reply.members
    return (true, data)

def encodeResumeOk (reply : ResumeOk) (_payload : Bytes) : Except Fault (Bool × Bytes) := do
  let payload := []
  if reply.members.length > maxU16 ∨ reply.states.length > maxU16 then
    return (false, payload)
  else if ¬∀ member ∈ reply.members, NameFits member.playerName then
    return (false, payload)
  else if ∃ state ∈ reply.states, state.playerId = 0 then
    return (false, payload)
  else
    let data := appendU32 reply.roomId ++ appendU64 reply.selfPlayerId
      ++ appendU16 (roomStateToU16 reply.roomState) ++ appendU64 reply.tickId
    let memberCount ← castU16 reply.members.length
    let data ← appendMembers (data ++ appendU16 memberCount) reply.members
    let stateCount ← castU16 reply.states.length
    return (true, appendStates (data ++ appendU16 stateCount) reply.states)

def encodePlayerJoined (event : PlayerJoined) (_payload : Bytes) :
    Except Fault (Bool × Bytes) := do
  let payload := []
  if ¬NameFits event.playerName then
    return (false, payload)
  else
    let nameSize ← castU16 event.playerName.length
    return (true, appendU32 event.roomId ++ appendU64 event.playerId ++ appendU16 nameSize
      ++ event.playerName)

def encodeChatEvent (event : ChatEvent) (_payload : Bytes) : Except Fault (Bool × Bytes) := do
  let payload := []
  if event.message = [] ∨ event.message.length > maxChatMessageSize then
    return (false, payload)
  else
    let messageSize ← castU16 event.message.length
    return (true, appendU32 event.roomId ++ appendU64 event.playerId ++ appendU16 messageSize
      ++ event.message)

def encodeStateSnapshot (event : StateSnapshot) (_payload : Bytes) :
    Except Fault (Bool × Bytes) := do
  let payload := []
  if event.states.length > maxU16 then
    return (false, payload)
  else if ∃ state ∈ event.states, state.playerId = 0 then
    return (false, payload)
  else
    let count ← castU16 event.states.length
    return (true, appendStates (appendU32 event.roomId ++ appendU64 event.tickId
      ++ appendU16 count) event.states)

/-! ### No cast loses anything -/

/-- A number within 16 bits is cast as it is. -/
theorem castU16_eq_ok {n : Nat} (h : n ≤ maxU16) :
  castU16 n = .ok (UInt16.ofNat n)
  := if_pos h

/-- The loop over members with names of the right length never faults. -/
theorem appendMembers_eq (data : Bytes) {members : List MemberInfo}
    (h : ∀ member ∈ members, NameFits member.playerName) :
  appendMembers data members = .ok (data ++ members.flatMap appendMember)
  := by
  induction members generalizing data with
  | nil =>
    rw [List.flatMap_nil, List.append_nil]
    rfl
  | cons member members ih =>
    obtain ⟨hmember, hmembers⟩ := List.forall_mem_cons.mp h
    have hname : member.playerName.length ≤ maxU16 := Nat.le_trans hmember.2 (by decide)
    rw [appendMembers, List.foldlM_cons, castU16_eq_ok hname]
    simp only [ok_bind]
    apply (ih _ hmembers).trans
    simp only [List.flatMap_cons, appendMember, appendText, List.append_assoc]

/-- The loop over the states appends them one behind the other. -/
theorem appendStates_eq (data : Bytes) (states : List PlayerGameState) :
  appendStates data states = data ++ states.flatMap appendState
  := by
  induction states generalizing data with
  | nil =>
    rw [List.flatMap_nil, List.append_nil]
    rfl
  | cons state states ih =>
    rw [appendStates, List.foldl_cons]
    apply (ih _).trans
    simp only [List.flatMap_cons, appendState, List.append_assoc]

/-- The checks come before the casts of the token and of the members. -/
theorem encodeJoinOk_eq (reply : JoinOk) (payload : Bytes) :
  encodeJoinOk reply payload = .ok (answer
    (Protocol.encodeJoinOk reply.roomId reply.selfPlayerId reply.token reply.members) [])
  := by
  rw [encodeJoinOk, Protocol.encodeJoinOk]
  split
  · rfl
  next htoken =>
  split
  · rfl
  next hcount =>
  split
  · rfl
  next hnames =>
  simp only [maxTokenSize] at htoken
  have hlen : reply.token.length ≤ maxU16 := by
    simp only [maxU16]
    omega
  rw [castU16_eq_ok hlen, ok_bind, castU16_eq_ok (Nat.not_lt.mp hcount), ok_bind,
    appendMembers_eq _ (not_not.mp hnames), ok_bind]
  simp only [answer, appendText, List.append_assoc]
  rfl

/-- The checks come before the casts of the two sizes and of the names. -/
theorem encodeResumeOk_eq (reply : ResumeOk) (payload : Bytes) :
  encodeResumeOk reply payload = .ok (answer
    (Protocol.encodeResumeOk reply.roomId reply.selfPlayerId reply.roomState reply.tickId
      reply.members reply.states) [])
  := by
  rw [encodeResumeOk, Protocol.encodeResumeOk]
  split
  · rfl
  next hcount =>
  split
  · rfl
  next hnames =>
  split
  · rfl
  rw [not_or, Nat.not_lt, Nat.not_lt] at hcount
  rw [castU16_eq_ok hcount.1, ok_bind, appendMembers_eq _ (not_not.mp hnames), ok_bind,
    castU16_eq_ok hcount.2, ok_bind, appendStates_eq]
  simp only [answer, List.append_assoc]
  rfl

/-- The check of the name comes before the cast of its length. -/
theorem encodePlayerJoined_eq (event : PlayerJoined) (payload : Bytes) :
  encodePlayerJoined event payload = .ok (answer
    (Protocol.encodePlayerJoined event.roomId event.playerId event.playerName) [])
  := by
  rw [encodePlayerJoined, Protocol.encodePlayerJoined]
  split
  · rfl
  next hname =>
  have hlen : event.playerName.length ≤ maxU16 := Nat.le_trans (not_not.mp hname).2 (by decide)
  rw [castU16_eq_ok hlen, ok_bind]
  simp only [answer, appendText, List.append_assoc]
  rfl

/-- The check of the message comes before the cast of its length. -/
theorem encodeChatEvent_eq (event : ChatEvent) (payload : Bytes) :
  encodeChatEvent event payload = .ok (answer
    (Protocol.encodeChatEvent event.roomId event.playerId event.message) [])
  := by
  rw [encodeChatEvent, Protocol.encodeChatEvent]
  split
  · rfl
  next hmessage =>
  rw [not_or, Nat.not_lt] at hmessage
  have hlen : event.message.length ≤ maxU16 := Nat.le_trans hmessage.2 (by decide)
  rw [castU16_eq_ok hlen, ok_bind]
  simp only [answer, appendText, List.append_assoc]
  rfl

/-- The check of the size comes before its cast. -/
theorem encodeStateSnapshot_eq (event : StateSnapshot) (payload : Bytes) :
  encodeStateSnapshot event payload = .ok (answer
    (Protocol.encodeStateSnapshot event.roomId event.tickId event.states) [])
  := by
  rw [encodeStateSnapshot, Protocol.encodeStateSnapshot]
  split
  · rfl
  next hcount =>
  split
  · rfl
  rw [castU16_eq_ok (Nat.not_lt.mp hcount), ok_bind, appendStates_eq]
  rfl

end Checked

/-! ### What the readers recover -/

/-- An encoder that answers as a partial function does reports success exactly with what that
function gives. -/
theorem eq_some_of_answer {out payload : Bytes} {result : Option Bytes}
    (h : Except.ok (answer result out) = (.ok (true, payload) : Except Checked.Fault _)) :
  result = some payload
  := by
  cases result with
  | none => cases h
  | some payload' =>
    cases h
    rfl

/-- A reader recovers what an encoder wrote: the encoder never loses a part of a count or a
length, the reader consumes exactly the payload and gives back the arguments, different
arguments have different payloads, and without success the payload is empty. -/
structure UniquelyDecoded {α : Type} (encode : α → Bytes → Except Checked.Fault (Bool × Bytes))
    (read : Reader α) : Prop where
  total : ∀ a out, ∃ success payload, encode a out = .ok (success, payload)
  recovers : ∀ a out payload, encode a out = .ok (true, payload) →
    wholly read payload = some a
  injective : ∀ a a' out out' payload, encode a out = .ok (true, payload) →
    encode a' out' = .ok (true, payload) → a = a'
  cleared : ∀ a out payload, encode a out = .ok (false, payload) → payload = []

/-- It is enough that the encoder answers as a partial function does, and that the reader takes
back what this function gives. -/
theorem uniquelyDecoded_of_answer {α : Type}
    {encode : α → Bytes → Except Checked.Fault (Bool × Bytes)} {read : Reader α}
    {write : α → Option Bytes} (hencode : ∀ a out, encode a out = .ok (answer (write a) []))
    (hread : ∀ a payload, write a = some payload → read payload = some (a, [])) :
  UniquelyDecoded encode read
  := by
  have hwrite : ∀ a out payload, encode a out = .ok (true, payload) → write a = some payload := by
    intro a out payload h
    rw [hencode] at h
    apply eq_some_of_answer h
  have hrecovers : ∀ a out payload, encode a out = .ok (true, payload) →
      wholly read payload = some a := by
    intro a out payload h
    apply wholly_of_read (hread a payload (hwrite a out payload h))
  constructor
  case total =>
    intro a out
    use (answer (write a) []).1, (answer (write a) []).2
    apply hencode
  case recovers => exact hrecovers
  case injective =>
    intro a a' out out' payload h h'
    have heq := hrecovers a out payload h
    rw [hrecovers a' out' payload h'] at heq
    apply (Option.some.inj heq).symm
  case cleared =>
    intro a out payload h
    rw [hencode] at h
    cases hpayload : write a with
    | none =>
      rw [hpayload] at h
      cases h
      rfl
    | some payload' =>
      rw [hpayload] at h
      cases h

/-- A client recovers its room, its id, its token and the members from a `joinOk`. -/
theorem joinOk_uniquelyDecoded :
  UniquelyDecoded Checked.encodeJoinOk takeJoinOk
  := by
  apply uniquelyDecoded_of_answer Checked.encodeJoinOk_eq
  intro reply payload
  apply takeJoinOk_of_encodeJoinOk

/-- A client recovers the room as it stands from a `resumeOk`. -/
theorem resumeOk_uniquelyDecoded :
  UniquelyDecoded Checked.encodeResumeOk takeResumeOk
  := by
  apply uniquelyDecoded_of_answer Checked.encodeResumeOk_eq
  intro reply payload
  apply takeResumeOk_of_encodeResumeOk

/-- A client recovers the tick and the states from a `stateSnapshot`. -/
theorem stateSnapshot_uniquelyDecoded :
  UniquelyDecoded Checked.encodeStateSnapshot takeStateSnapshot
  := by
  apply uniquelyDecoded_of_answer Checked.encodeStateSnapshot_eq
  intro event payload
  apply takeStateSnapshot_of_encodeStateSnapshot

/-- A client recovers the new member from a `playerJoined`. -/
theorem playerJoined_uniquelyDecoded :
  UniquelyDecoded Checked.encodePlayerJoined takePlayerJoined
  := by
  apply uniquelyDecoded_of_answer Checked.encodePlayerJoined_eq
  intro event payload
  apply takePlayerJoined_of_encodePlayerJoined

/-- A client recovers the message and who sent it from a `chatEvent`. -/
theorem chatEvent_uniquelyDecoded :
  UniquelyDecoded Checked.encodeChatEvent takeChatEvent
  := by
  apply uniquelyDecoded_of_answer Checked.encodeChatEvent_eq
  intro event payload
  apply takeChatEvent_of_encodeChatEvent

end Protocol

end RoomServer
