import RoomServer.Benchmarks.LoadGen
import RoomServer.Net.Replies

/-!
# The load generator accepts what the server writes

`Unread payload offset rest` says that the bytes from an offset of a payload on are `rest`.
Every read of the load generator goes past what the server has written there, so its checks of a
`joinOk` and of a `stateSnapshot` pass.
-/

namespace RoomServer

open Protocol

namespace LoadGen

/-- The offset lies in the payload, and `rest` are the bytes from there on. -/
structure Unread (payload : Bytes) (offset : Nat) (rest : Bytes) : Prop where
  le_length : offset ≤ payload.length
  drop_eq : payload.drop offset = rest

variable {payload rest : Bytes} {offset : Nat}

theorem unread_start (payload : Bytes) :
  Unread payload 0 payload
  := ⟨Nat.zero_le _, List.drop_zero⟩

theorem Unread.length_eq (h : Unread payload offset rest) :
  payload.length - offset = rest.length
  := by
  rw [← h.drop_eq, List.length_drop]

/-- Going past the bytes in front. -/
theorem Unread.skip {bs : Bytes} (h : Unread payload offset (bs ++ rest)) :
  Unread payload (offset + bs.length) rest
  := by
  have hlen := h.length_eq
  have hle := h.le_length
  rw [List.length_append] at hlen
  constructor
  · omega
  · rw [← List.drop_drop, h.drop_eq, List.drop_left]

theorem Unread.eq_length (h : Unread payload offset []) :
  offset = payload.length
  := by
  have hlen := h.length_eq
  have hle := h.le_length
  rw [List.length_nil] at hlen
  omega

theorem Unread.readU16 {value : UInt16} (h : Unread payload offset (appendU16 value ++ rest)) :
  LoadGen.readU16 payload offset = some (value, offset + 2) ∧ Unread payload (offset + 2) rest
  := by
  constructor
  · rw [LoadGen.readU16, readU16_eq_some_iff.mpr ⟨rest, h.drop_eq⟩, Option.map_some]
  · rw [← length_appendU16 value]
    apply h.skip

theorem Unread.readU32 {value : UInt32} (h : Unread payload offset (appendU32 value ++ rest)) :
  LoadGen.readU32 payload offset = some (value, offset + 4) ∧ Unread payload (offset + 4) rest
  := by
  constructor
  · rw [LoadGen.readU32, readU32_eq_some_iff.mpr ⟨rest, h.drop_eq⟩, Option.map_some]
  · rw [← length_appendU32 value]
    apply h.skip

theorem Unread.readU64 {value : UInt64} (h : Unread payload offset (appendU64 value ++ rest)) :
  LoadGen.readU64 payload offset = some (value, offset + 8) ∧ Unread payload (offset + 8) rest
  := by
  rw [appendU64, List.append_assoc] at h
  obtain ⟨hhigh, hrest⟩ := h.readU32
  obtain ⟨hlow, hrest'⟩ := hrest.readU32
  constructor
  · simp only [LoadGen.readU64, hhigh, hlow, Option.bind_eq_bind, Option.bind_some, halves_eq,
      Option.pure_def, Nat.add_assoc]
  · exact hrest'

/-- The number before a text is its length, and the text follows. -/
theorem Unread.readText {text : Bytes} (hfits : text.length ≤ maxU16)
    (h : Unread payload offset (appendText text ++ rest)) :
  ∃ size, LoadGen.readU16 payload offset = some (size, offset + 2)
    ∧ size.toNat = text.length ∧ Unread payload (offset + 2) (text ++ rest)
  := by
  rw [appendText, List.append_assoc] at h
  obtain ⟨hsize, hrest⟩ := h.readU16
  use UInt16.ofNat text.length, hsize
  constructor
  · rw [UInt16.toNat_ofNat', Nat.mod_eq_of_lt (Nat.lt_succ_of_le hfits)]
  · exact hrest

/-- The loop over the members goes past the members. -/
theorem Unread.readMembers {members : List MemberInfo}
    (hnames : ∀ member ∈ members, NameFits member.playerName)
    (hids : ∀ member ∈ members, member.playerId ≠ 0)
    (h : Unread payload offset (members.flatMap appendMember ++ rest)) :
  ∃ offset', LoadGen.readMembers payload members.length offset = some offset'
    ∧ Unread payload offset' rest
  := by
  induction members generalizing offset with
  | nil => exact ⟨offset, rfl, h⟩
  | cons member members ih =>
    rw [List.forall_mem_cons] at hnames hids
    obtain ⟨hne, hmax⟩ := hnames.1
    rw [List.flatMap_cons, appendMember, List.append_assoc, List.append_assoc] at h
    obtain ⟨hid, h₁⟩ := h.readU64
    obtain ⟨size, hsize, hsizelen, h₂⟩ := h₁.readText (Nat.le_trans hmax (by decide))
    have hlen := h₂.length_eq
    rw [List.length_append] at hlen
    have hsize0 : size ≠ 0 := by
      rw [Ne, ← UInt16.toNat_inj, hsizelen]
      exact fun hzero => hne (List.length_eq_zero_iff.mp hzero)
    obtain ⟨offset', hread, h₃⟩ := ih hnames.2 hids.2 h₂.skip
    use offset'
    constructor
    · simp only [List.length_cons, LoadGen.readMembers, hid, hsize, Option.bind_eq_bind,
        Option.bind_some]
      rw [if_neg, hsizelen, hread]
      have hle := h₂.le_length
      simp only [hids.1, hsize0, hsizelen, false_or]
      simp only [maxPlayerNameSize] at hmax ⊢
      omega
    · exact h₃

/-- The checks of a `joinOk` pass, for a client of the room. -/
theorem readJoinOk_of_encodeJoinOk {reply : JoinOk} (hself : reply.selfPlayerId ≠ 0)
    (hids : ∀ member ∈ reply.members, member.playerId ≠ 0)
    (h : encodeJoinOk reply.roomId reply.selfPlayerId reply.token reply.members = some payload) :
  readJoinOk reply.roomId payload = some reply.selfPlayerId
  := by
  obtain ⟨⟨hne, htoken⟩, hcount, hnames⟩ := encodeJoinOk_eq_some_iff.mp ⟨payload, h⟩
  rw [encodeJoinOk, if_neg (not_or.mpr ⟨hne, Nat.not_lt.mpr htoken⟩),
    if_neg (Nat.not_lt.mpr hcount), if_neg (not_not.mpr hnames), Option.some.injEq] at h
  have h₀ := unread_start payload
  nth_rewrite 2 [← h] at h₀
  simp only [List.append_assoc] at h₀
  obtain ⟨hroom, h₁⟩ := h₀.readU32
  obtain ⟨hplayer, h₂⟩ := h₁.readU64
  obtain ⟨size, hsize, hsizelen, h₃⟩ := h₂.readText (Nat.le_trans htoken (by decide))
  have hlen := h₃.length_eq
  rw [List.length_append] at hlen
  have h₄ := h₃.skip
  obtain ⟨hmembers, h₅⟩ := h₄.readU16
  rw [← List.append_nil (reply.members.flatMap appendMember)] at h₅
  obtain ⟨offset, hread, h₆⟩ := h₅.readMembers hnames hids
  have hsize0 : size ≠ 0 := by
    rw [Ne, ← UInt16.toNat_inj, hsizelen]
    exact fun hzero => hne (List.length_eq_zero_iff.mp hzero)
  have hcountlen : (UInt16.ofNat reply.members.length).toNat = reply.members.length := by
    rw [UInt16.toNat_ofNat', Nat.mod_eq_of_lt (Nat.lt_succ_of_le hcount)]
  have hle := h₃.le_length
  simp only [readJoinOk, hroom, hplayer, hsize, Option.bind_eq_bind, Option.bind_some]
  rw [if_neg]
  · simp only [hsizelen, hmembers, Option.bind_some, hcountlen, hread]
    rw [if_neg]
    · rfl
    · simp only [h₆.eq_length, ne_eq, not_true, hself, or_false, not_false_iff]
  · simp only [hsize0, hsizelen, false_or]
    simp only [maxTokenSize] at htoken ⊢
    omega

/-- The loop over the states goes past the states and finds the client if it is there. -/
theorem Unread.readStates {states : List PlayerGameState} (self : UInt64) {seen : List UInt64}
    (found : Bool) (hids : ∀ state ∈ states, state.playerId ≠ 0)
    (hnodup : (seen ++ states.map PlayerGameState.playerId).Nodup)
    (h : Unread payload offset (states.flatMap appendState ++ rest)) :
  ∃ offset', LoadGen.readStates self payload states.length seen found offset
      = some (found || self ∈ states.map PlayerGameState.playerId, offset')
    ∧ Unread payload offset' rest
  := by
  induction states generalizing offset seen found with
  | nil => exact ⟨offset, by simp [LoadGen.readStates], h⟩
  | cons state states ih =>
    rw [List.forall_mem_cons] at hids
    have hi32 : ∀ value : Int32, appendI32 value = appendU32 value.toUInt32 := fun _ => rfl
    simp only [List.flatMap_cons, appendState, List.append_assoc, hi32] at h
    obtain ⟨hid, h₁⟩ := h.readU64
    obtain ⟨hx, h₂⟩ := h₁.readU32
    obtain ⟨hy, h₃⟩ := h₂.readU32
    obtain ⟨hhp, h₄⟩ := h₃.readU32
    have hnew : state.playerId ∉ seen := by
      intro hseen
      apply List.disjoint_of_nodup_append hnodup hseen List.mem_cons_self
    rw [List.map_cons, ← List.singleton_append, ← List.append_assoc] at hnodup
    obtain ⟨offset', hread, h₅⟩ := ih (found || state.playerId == self) hids.2 hnodup h₄
    use offset'
    constructor
    · simp only [List.length_cons, LoadGen.readStates, hid, hx, hy, hhp, Option.bind_eq_bind,
        Option.bind_some]
      rw [if_neg (not_or.mpr ⟨hids.1, hnew⟩), hread]
      simp only [List.map_cons, List.mem_cons, Bool.or_assoc, Bool.decide_or, eq_comm,
        Bool.beq_eq_decide_eq]
    · exact h₅

/-- The checks of a `stateSnapshot` pass, for a client of the room that is among the players. -/
theorem readStateSnapshot_of_encodeStateSnapshot {event : StateSnapshot} {self : UInt64}
    (htick : event.tickId ≠ 0) (hnodup : (event.states.map PlayerGameState.playerId).Nodup)
    (hself : self ∈ event.states.map PlayerGameState.playerId)
    (h : encodeStateSnapshot event.roomId event.tickId event.states = some payload) :
  readStateSnapshot event.roomId self event.states.length payload = some event.tickId
  := by
  rw [encodeStateSnapshot, Option.ite_none_left_eq_some, Option.ite_none_left_eq_some,
    Option.some.injEq] at h
  obtain ⟨hcount, hzero, h⟩ := h
  have hids : ∀ state ∈ event.states, state.playerId ≠ 0 :=
    fun state hstate hid => hzero ⟨state, hstate, hid⟩
  have h₀ := unread_start payload
  nth_rewrite 2 [← h] at h₀
  simp only [List.append_assoc] at h₀
  obtain ⟨hroom, h₁⟩ := h₀.readU32
  obtain ⟨htickId, h₂⟩ := h₁.readU64
  obtain ⟨hstates, h₃⟩ := h₂.readU16
  have hcountlen : (UInt16.ofNat event.states.length).toNat = event.states.length := by
    rw [UInt16.toNat_ofNat', Nat.mod_eq_of_lt (Nat.lt_succ_of_le (Nat.not_lt.mp hcount))]
  have hlen := h₃.length_eq
  rw [length_flatMap_appendState] at hlen
  rw [← List.append_nil (event.states.flatMap appendState)] at h₃
  have hle := h₃.le_length
  have hunseen : ([] ++ event.states.map PlayerGameState.playerId).Nodup := hnodup
  obtain ⟨offset, hread, h₄⟩ := h₃.readStates self false hids hunseen
  simp only [readStateSnapshot, hroom, htickId, hstates, Option.bind_eq_bind, Option.bind_some]
  rw [if_neg]
  · simp only [hcountlen, hread, Option.bind_some]
    rw [if_neg]
    · rfl
    · simp only [hself, decide_true, Bool.or_true, Bool.not_true, Bool.false_eq_true, false_or,
        h₄.eq_length, ne_eq, not_true, not_false_iff]
  · simp only [ne_eq, not_true, htick, hcountlen, false_or, stateSize]
    omega

/-! ### Whole frames -/

/-- A client that is joining a room becomes active with a `joinOk` of that room. -/
theorem processFrame_joinOk {gen : LoadGen} {client : Client} {now : Time} {reply : JoinOk}
    {out : Bytes} (h : Checked.encodeJoinOk reply out = .ok (true, payload))
    (hself : reply.selfPlayerId ≠ 0) (hids : ∀ member ∈ reply.members, member.playerId ≠ 0)
    (hstate : client.state = .joining) (hroom : client.roomId = reply.roomId) :
  ∃ gen' client', gen.processFrame client MessageType.joinOk.toU16 payload now
      = (true, gen', client')
    ∧ client'.state = .active ∧ client'.playerId = reply.selfPlayerId
  := by
  rw [Checked.encodeJoinOk_eq] at h
  have hread := readJoinOk_of_encodeJoinOk hself hids (eq_some_of_answer h)
  rw [← hroom] at hread
  simp only [processFrame, MessageType.ofU16_toU16, hstate, ne_eq, not_true, if_false, hread]
  exact ⟨_, _, rfl, rfl, rfl⟩

/-- An active client accepts a `stateSnapshot` of its room with a new tick, and has seen the tick
then. -/
theorem processFrame_stateSnapshot {gen : LoadGen} {client : Client} {now : Time}
    {event : StateSnapshot} {out : Bytes}
    (h : Checked.encodeStateSnapshot event out = .ok (true, payload))
    (htick : event.tickId ≠ 0) (hnodup : (event.states.map PlayerGameState.playerId).Nodup)
    (hself : client.playerId ∈ event.states.map PlayerGameState.playerId)
    (hcount : event.states.length = gen.config.roomCapacity)
    (hstate : client.state = .active) (hroom : client.roomId = event.roomId)
    (hnew : client.hasTick = true → client.lastTickId < event.tickId) :
  ∃ gen' client', gen.processFrame client MessageType.stateSnapshot.toU16 payload now
      = (true, gen', client')
    ∧ client'.state = .active ∧ client'.lastTickId = event.tickId
  := by
  rw [Checked.encodeStateSnapshot_eq] at h
  have hread := readStateSnapshot_of_encodeStateSnapshot htick hnodup hself (eq_some_of_answer h)
  rw [← hroom, hcount] at hread
  have hold : ¬(client.hasTick = true ∧ event.tickId ≤ client.lastTickId) := by
    rintro ⟨hhas, hle⟩
    exact absurd (hnew hhas) (UInt64.not_lt.mpr hle)
  simp only [processFrame, MessageType.ofU16_toU16, hstate, ne_eq, not_true, if_false, hread]
  rw [recordSnapshot, if_neg hold]
  exact ⟨_, _, rfl, hstate, rfl⟩

/-- The responses are uniquely decodable, and the load generator accepts every `joinOk` with ids
that are not zero and every new `stateSnapshot` of a full room. -/
theorem replies_uniquelyDecoded :
  UniquelyDecoded Checked.encodeJoinOk takeJoinOk
    ∧ UniquelyDecoded Checked.encodeResumeOk takeResumeOk
    ∧ UniquelyDecoded Checked.encodeStateSnapshot takeStateSnapshot
    ∧ UniquelyDecoded Checked.encodePlayerJoined takePlayerJoined
    ∧ UniquelyDecoded Checked.encodeChatEvent takeChatEvent
    ∧ (∀ (gen : LoadGen) (client : Client) (now : Time) (reply : JoinOk) (out payload : Bytes),
      Checked.encodeJoinOk reply out = .ok (true, payload) →
      reply.selfPlayerId ≠ 0 → (∀ member ∈ reply.members, member.playerId ≠ 0) →
      client.state = .joining → client.roomId = reply.roomId →
      ∃ gen' client', gen.processFrame client MessageType.joinOk.toU16 payload now
          = (true, gen', client')
        ∧ client'.state = .active ∧ client'.playerId = reply.selfPlayerId)
    ∧ ∀ (gen : LoadGen) (client : Client) (now : Time) (event : StateSnapshot)
        (out payload : Bytes),
      Checked.encodeStateSnapshot event out = .ok (true, payload) →
      event.tickId ≠ 0 → (event.states.map PlayerGameState.playerId).Nodup →
      client.playerId ∈ event.states.map PlayerGameState.playerId →
      event.states.length = gen.config.roomCapacity →
      client.state = .active → client.roomId = event.roomId →
      (client.hasTick = true → client.lastTickId < event.tickId) →
      ∃ gen' client', gen.processFrame client MessageType.stateSnapshot.toU16 payload now
          = (true, gen', client')
        ∧ client'.state = .active ∧ client'.lastTickId = event.tickId
  := by
  refine ⟨joinOk_uniquelyDecoded, resumeOk_uniquelyDecoded, stateSnapshot_uniquelyDecoded,
    playerJoined_uniquelyDecoded, chatEvent_uniquelyDecoded, ?_, ?_⟩
  · intro gen client now reply out payload h hself hids hstate hroom
    apply processFrame_joinOk h hself hids hstate hroom
  · intro gen client now event out payload h htick hnodup hself hcount hstate hroom hnew
    apply processFrame_stateSnapshot h htick hnodup hself hcount hstate hroom hnew

end LoadGen

end RoomServer
