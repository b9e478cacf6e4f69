import RoomServer.Net.Requests
import RoomServer.Service.Outcomes
import RoomServer.Service.Server

/-!
# What a connection receives

The bytes a connection receives are cut into frames in the thread of the connection.  There
heartbeats are answered, and the requests of the other six types are posted to the base loop
as they are: their payloads are decoded only when the base loop comes to them, by handlers that
answer what they cannot decode by an error.

A frame is `WellFormed` when its payload has the layout of the request of its type.
`StopsAtErrors` says that a stream is not handled beyond its first structural error: a length
no frame has, or a frame that is not well formed.  This is so exactly for the streams whose
first error is not in a frame that is posted.
-/

namespace RoomServer

namespace Protocol

/-- The payload is the string of a value. -/
def Layout.Writes {α : Type} (L : Layout α) (payload : Bytes) : Prop :=
  ∃ value, L.Fits value ∧ payload = L.write value

/-- A text behind its size, as which a token is sent; which sizes a token has is not a matter
of the layout. -/
def textLayout : Layout Bytes where
  Fits text := text.length ≤ maxU16
  write := appendText

theorem Layout.not_writes_iff {α : Type} {L : Layout α} {read : Bytes → Option α}
    (hread : ∀ {payload value}, read payload = some value
      ↔ L.Fits value ∧ payload = L.write value) {payload : Bytes} :
  ¬L.Writes payload ↔ read payload = none
  := by
  rw [Option.eq_none_iff_forall_not_mem, Layout.Writes, not_exists]
  constructor
  · intro h value hvalue
    apply h value (hread.mp hvalue)
  · intro h value hvalue
    apply h value (hread.mpr hvalue)

/-- A payload that holds a token is a text. -/
theorem writes_of_resume {payload : Bytes} (h : resumeLayout.Writes payload) :
  textLayout.Writes payload
  := by
  obtain ⟨request, ⟨-, hmax⟩, rfl⟩ := h
  exact ⟨request.token, Nat.le_trans hmax (by decide), rfl⟩

end Protocol

/-- The frame is a request, and its payload has the layout of the requests of its type. -/
def WellFormed (f : Frame) : Prop :=
  match MessageType.ofU16 f.type with
  | some .join => Protocol.joinLayout.Writes f.payload
  | some .leave => Protocol.leaveLayout.Writes f.payload
  | some .chat => Protocol.chatLayout.Writes f.payload
  | some .move => Protocol.moveLayout.Writes f.payload
  | some .attack => Protocol.attackLayout.Writes f.payload
  | some .heartbeat => Protocol.heartbeatLayout.Writes f.payload
  | some .resume => Protocol.textLayout.Writes f.payload
  | _ => False

/-- An acknowledgement fits into a frame. -/
theorem encode_heartbeatAck (seq : UInt64) :
  Codec.encode MessageType.heartbeatAck.toU16 (Protocol.appendU64 seq)
    = some (Codec.frameBytes ⟨MessageType.heartbeatAck.toU16, Protocol.appendU64 seq⟩)
  := by
  apply Codec.encode_eq_some_iff.mpr ⟨_, rfl⟩
  simp [Codec.Fits]

namespace RoomService

/-! ### In the thread of the connection -/

/-- Acknowledge a heartbeat. -/
def handleHeartbeat (answers : Answers) (connection : ConnectionPtr) (payload : Bytes) :
    Bool × List Event :=
  if connection.isNone then
    (false, [])
  else
    match Protocol.decodeHeartbeatRequest payload with
    | none => (false, [])
    | some request =>
      match Protocol.encodeHeartbeatAck request.seq with
      | none => (false, [])
      | some payload => sendFrame answers [] connection .heartbeatAck payload

/-- Handle a frame: whether to go on, the frame that is posted to the base loop if there is one,
and the events.  The time of the last activity is left out. -/
def handleDecodedFrame (answers : Answers) (connection : ConnectionPtr) (type : UInt16)
    (payload : Bytes) : Bool × Option Frame × List Event :=
  if connection.isNone then
    (false, none, [])
  else
    match MessageType.ofU16 type with
    | some .heartbeat =>
      let (result, events) := handleHeartbeat answers connection payload
      (result, none, events)
    | some .join | some .leave | some .chat | some .move | some .attack | some .resume =>
      (true, some ⟨type, payload⟩, [])
    | _ => (false, none, [])

/-! ### What comes of the frames -/

/-- What the frames of a connection have led to: the service behind the last one that was
posted, and the events of all of them. -/
structure Intake where
  service : RoomService
  events : List Event

/-- What is not up to the frames of the connection: the service the base loop has when it comes
to a frame, on which others have worked meanwhile, the answers of the connections, the generated
tokens and the time. -/
structure Surroundings where
  meanwhile : Intake → RoomService
  answers : Intake → Answers
  token : Intake → Bytes
  now : Intake → Int

/-- Handle a frame in the thread of the connection, and in the base loop if it is posted. -/
def receive (world : Surroundings) (c : ConnId) : Codec.FrameCallback Intake :=
  fun intake type payload =>
    match handleDecodedFrame (world.answers intake) (some c) type payload with
    | (result, none, events) => (result, { intake with events := intake.events ++ events })
    | (result, some f, events) =>
      let (service, events') := (world.meanwhile intake).run (world.answers intake)
        (.frame (some c) f.type f.payload (world.token intake) (world.now intake))
      (result, ⟨service, intake.events ++ events ++ events'⟩)

/-- The bytes a connection receives, in the pieces in which they arrive, are handled by the
message callback after each piece, until it answers `false`. -/
def feedPieces (world : Surroundings) (c : ConnId) (intake : Intake) (pieces : List Bytes) :
    Bool × Intake × Buffer :=
  Codec.feed (receive world c) pieces intake (Buffer.new 4096)

/-- The connection is closed behind the message callback, and no frame has had an effect but
those that have led to `last`. -/
structure EndsAt (world : Surroundings) (c : ConnId) (intake : Intake) (pieces : List Bytes)
    (last : Intake) : Prop where
  closes : ∀ (run : IoRun) (events : UInt32),
    run.resumeEvent events (feedPieces world c intake pieces).1 = run.handleClose
  last_eq : (feedPieces world c intake pieces).2.1 = last

/-- The stream is handled up to its first structural error, unless one of the frames before
closes the connection, and ends the connection there. -/
structure StopsAtErrors (world : Surroundings) (c : ConnId) (intake : Intake)
    (pieces : List Bytes) : Prop where
  frame : ∀ before f after last, (Codec.readFrames pieces.flatten).frames = before ++ f :: after →
    (∀ g ∈ before, WellFormed g) → ¬WellFormed f →
    Codec.offer (receive world c) intake before = (true, last) →
    EndsAt world c intake pieces last
  length : ∀ last, (Codec.readFrames pieces.flatten).good = false →
    (∀ g ∈ (Codec.readFrames pieces.flatten).frames, WellFormed g) →
    Codec.offer (receive world c) intake (Codec.readFrames pieces.flatten).frames = (true, last) →
    EndsAt world c intake pieces last

/-- The first frame of the stream that is not well formed, if there is one, is not posted: it
is a heartbeat or no request at all. -/
def FirstErrorKept (stream : Bytes) : Prop :=
  ∀ before f after, (Codec.readFrames stream).frames = before ++ f :: after →
    (∀ g ∈ before, WellFormed g) → ¬WellFormed f → ∀ type ∈ requestTypes, f.type ≠ type.toU16

/-! ### Errors in the thread of the connection -/

variable {world : Surroundings} {c : ConnId} {intake last : Intake} {f : Frame}

/-- A frame that is not well formed and is not posted has no effect, and stops the decoding. -/
theorem handleDecodedFrame_of_kept (answers : Answers) (c : ConnId) (h : ¬WellFormed f)
    (hkept : ∀ type ∈ requestTypes, f.type ≠ type.toU16) :
  handleDecodedFrame answers (some c) f.type f.payload = (false, none, [])
  := by
  rw [handleDecodedFrame, if_neg (by simp)]
  rw [WellFormed] at h
  cases htype : MessageType.ofU16 f.type with
  | none => rfl
  | some type =>
    rw [htype] at h
    have hnot : type ∉ requestTypes :=
      fun hmem => hkept type hmem (MessageType.toU16_of_ofU16 htype)
    cases type
    case heartbeat =>
      have hnone := (Protocol.Layout.not_writes_iff
        Protocol.decodeHeartbeatRequest_eq_some_iff).mp h
      dsimp only
      rw [handleHeartbeat, if_neg (by simp), hnone]
    all_goals first | rfl | exact absurd (by decide) hnot

/-! ### Errors in the base loop -/

/-- A request that is not well formed is denied by the base loop, and changes nothing. -/
theorem run_of_malformed (service : RoomService) (answers : Answers) (c : ConnId)
    (token payload : Bytes) (now : Int) {type : MessageType} (htype : type ∈ requestTypes)
    (h : ¬WellFormed ⟨type.toU16, payload⟩) :
  ∃ es, service.run answers (.frame (some c) type.toU16 payload token now) = (service, es)
    ∧ Denied c type es
  := by
  rw [WellFormed] at h
  rw [run, handleFrameInLoop, if_neg (by simp)]
  simp only [MessageType.ofU16_toU16] at h ⊢
  cases type
  case join =>
    have hnone := (Protocol.Layout.not_writes_iff Protocol.decodeJoinRequest_eq_some_iff).mp h
    dsimp only
    rw [handleJoin, hnone]
    exact ⟨_, rfl, sendError_denied answers c htype _⟩
  case leave =>
    have hnone := (Protocol.Layout.not_writes_iff Protocol.decodeLeaveRequest_iff).mp h
    have hfalse : Protocol.decodeLeaveRequest payload = false := by
      by_contra htrue
      rw [Bool.not_eq_false] at htrue
      rw [htrue] at hnone
      cases hnone
    dsimp only
    rw [handleLeave, hfalse]
    exact ⟨_, rfl, sendError_denied answers c htype _⟩
  case chat =>
    have hnone := (Protocol.Layout.not_writes_iff Protocol.decodeChatRequest_eq_some_iff).mp h
    dsimp only
    rw [handleChat, hnone]
    exact ⟨_, rfl, sendError_denied answers c htype _⟩
  case move =>
    have hnone := (Protocol.Layout.not_writes_iff Protocol.decodeMoveRequest_eq_some_iff).mp h
    dsimp only
    rw [handleMove, hnone]
    exact ⟨_, rfl, sendError_denied answers c htype _⟩
  case attack =>
    have hnone := (Protocol.Layout.not_writes_iff Protocol.decodeAttackRequest_eq_some_iff).mp h
    dsimp only
    rw [handleAttack, hnone]
    exact ⟨_, rfl, sendError_denied answers c htype _⟩
  case resume =>
    have hnone := (Protocol.Layout.not_writes_iff Protocol.decodeResumeRequest_eq_some_iff).mp
      fun hwrites => h (Protocol.writes_of_resume hwrites)
    dsimp only
    rw [handleResume, hnone]
    exact ⟨_, rfl, sendError_denied answers c htype _⟩
  all_goals exact absurd htype (by decide)

/-! ### Streams -/

/-- What a stream leads to is what its frames lead to. -/
theorem feedPieces_spec (world : Surroundings) (c : ConnId) (intake : Intake)
    (pieces : List Bytes) :
  (feedPieces world c intake pieces).1
      = ((Codec.offer (receive world c) intake (Codec.readFrames pieces.flatten).frames).1
        && (Codec.readFrames pieces.flatten).good)
    ∧ (feedPieces world c intake pieces).2.1
      = (Codec.offer (receive world c) intake (Codec.readFrames pieces.flatten).frames).2
  := by
  have hempty : Codec.Incomplete (Buffer.new 4096).content := .inl (by simp)
  obtain ⟨hresult, hintake, -⟩ := Codec.feed_spec (receive world c) pieces intake _ hempty
  rw [Buffer.content_new, List.nil_append] at hresult hintake
  exact ⟨hresult, hintake⟩

/-- The events of a frame come behind the earlier ones. -/
theorem prefix_receive (world : Surroundings) (c : ConnId) (intake : Intake) (type : UInt16)
    (payload : Bytes) :
  intake.events <+: (receive world c intake type payload).2.events
  := by
  rw [receive]
  split
  · apply List.prefix_append _ _
  · dsimp only
    rw [List.append_assoc]
    apply List.prefix_append _ _

/-- The events of frames come behind the earlier ones. -/
theorem prefix_offer (world : Surroundings) (c : ConnId) (intake : Intake) (fs : List Frame) :
  intake.events <+: (Codec.offer (receive world c) intake fs).2.events
  := by
  induction fs generalizing intake with
  | nil => apply List.prefix_refl _
  | cons f fs ih =>
    have hfirst := prefix_receive world c intake f.type f.payload
    rw [Codec.offer]
    split
    · next intake' heq =>
      rwa [heq] at hfirst
    · next intake' heq =>
      rw [heq] at hfirst
      apply hfirst.trans (ih intake')

/-- Everything is accepted, and nobody else works on the service. -/
def calm : Surroundings where
  meanwhile intake := intake.service
  answers _ := ⟨fun _ _ _ => true, fun _ _ => false⟩
  token _ := [1]
  now _ := 0

/-- When everything is accepted, decoding goes on behind a frame that is well formed. -/
theorem receive_calm (intake : Intake) (h : WellFormed f) :
  (receive calm c intake f.type f.payload).1 = true
  := by
  rw [WellFormed] at h
  rw [receive, handleDecodedFrame, if_neg (by simp)]
  cases htype : MessageType.ofU16 f.type with
  | none =>
    rw [htype] at h
    exact absurd h id
  | some type =>
    rw [htype] at h
    cases type
    case heartbeat =>
      obtain ⟨request, hfits, hpayload⟩ := h
      have hrequest := Protocol.decodeHeartbeatRequest_eq_some_iff.mpr ⟨hfits, hpayload⟩
      simp only [handleHeartbeat, Option.isNone_some, Bool.false_eq_true, if_false, hrequest,
        Protocol.encodeHeartbeatAck, sendFrame, encode_heartbeatAck, calm, if_true]
    all_goals first | rfl | exact absurd h id

theorem offer_calm (intake : Intake) {fs : List Frame} (h : ∀ f ∈ fs, WellFormed f) :
  (Codec.offer (receive calm c) intake fs).1 = true
  := by
  induction fs generalizing intake with
  | nil => rfl
  | cons f fs ih =>
    obtain ⟨hf, hfs⟩ := List.forall_mem_cons.mp h
    have hfirst := receive_calm (c := c) intake hf
    rw [Codec.offer]
    split
    · next heq =>
      rw [heq] at hfirst
      cases hfirst
    · apply ih _ hfs

/-! ### Structural errors -/

/-- A refused frame ends the connection behind the frames before it. -/
theorem endsAt_of_refused {pieces : List Bytes} {before after : List Frame}
    (hframes : (Codec.readFrames pieces.flatten).frames = before ++ f :: after)
    (hbefore : Codec.offer (receive world c) intake before = (true, last))
    (hrefused : receive world c last f.type f.payload = (false, last)) :
  EndsAt world c intake pieces last
  := by
  have hoffer : Codec.offer (receive world c) intake (Codec.readFrames pieces.flatten).frames
      = (false, last) := by
    rw [hframes, Codec.offer_append, hbefore, if_pos rfl, Codec.offer, hrefused]
  obtain ⟨hresult, hlast⟩ := feedPieces_spec world c intake pieces
  rw [hoffer] at hresult hlast
  constructor
  · intro run events
    rw [hresult]
    rfl
  · exact hlast

/-- A stream ends the connection at its first structural error, whatever goes on around the
connection, exactly when this error is not in a frame that is posted. -/
theorem stopsAtErrors_iff (c : ConnId) (pieces : List Bytes) :
  (∀ world intake, StopsAtErrors world c intake pieces) ↔ FirstErrorKept pieces.flatten
  := by
  constructor
  · intro hstops before f after hframes hbefore hf type htype hposted
    obtain ⟨frameType, payload⟩ := f
    dsimp only at hposted
    subst hposted
    -- The base loop denies the frame, and decoding goes on.
    have hoffer := offer_calm (c := c) ⟨new 0, []⟩ hbefore
    generalize hlast : (Codec.offer (receive calm c) ⟨new 0, []⟩ before).2 = last
    have hoffer' : Codec.offer (receive calm c) ⟨new 0, []⟩ before = (true, last) := by
      rw [← hoffer, ← hlast]
    obtain ⟨-, hend⟩ :=
      (hstops calm ⟨new 0, []⟩).frame before _ after last hframes hbefore hf hoffer'
    obtain ⟨es, hrun, hes⟩ := run_of_malformed last.service (calm.answers last) c [1] payload 0
      htype hf
    have hreceive : receive calm c last type.toU16 payload
        = (true, ⟨last.service, last.events ++ es⟩) := by
      have hdecoded : handleDecodedFrame (calm.answers last) (some c) type.toU16 payload
          = (true, some ⟨type.toU16, payload⟩, []) := by
        rw [handleDecodedFrame, if_neg (by simp), MessageType.ofU16_toU16]
        cases type
        all_goals first | rfl | exact absurd htype (by decide)
      rw [receive, hdecoded]
      dsimp only [calm] at hrun ⊢
      rw [hrun, List.append_nil]
    have hmore := prefix_offer calm c ⟨last.service, last.events ++ es⟩ after
    rw [(feedPieces_spec calm c ⟨new 0, []⟩ pieces).2, hframes, Codec.offer_append, hoffer',
      if_pos rfl, Codec.offer, hreceive] at hend
    dsimp only at hend
    rw [hend] at hmore
    have hlength := hmore.length_le
    rw [List.length_append] at hlength
    have hpos := List.length_pos_of_ne_nil hes.ne_nil
    omega
  · intro hkept world intake
    constructor
    · intro before f after last hframes hbefore hf hoffer
      apply endsAt_of_refused hframes hoffer
      rw [receive, handleDecodedFrame_of_kept _ c hf (hkept before f after hframes hbefore hf)]
      dsimp only
      rw [List.append_nil]
    · intro last hbad _ hoffer
      obtain ⟨hresult, hlast⟩ := feedPieces_spec world c intake pieces
      rw [hbad, Bool.and_false] at hresult
      rw [hoffer] at hlast
      constructor
      · intro run events
        rw [hresult]
        rfl
      · exact hlast

/-- A request to join whose payload is too short. -/
def shortJoin : Bytes := [0, 0, 0, 5, 0, 1, 0, 0, 0]

/-- The connection stays open behind a request to join whose payload is too short, and is told
that the name of the player is invalid. -/
theorem shortJoin_not_stopped :
  ¬∀ world c intake pieces, StopsAtErrors world c intake pieces
  := by
  intro hstops
  have hframes : (Codec.readFrames [shortJoin].flatten).frames = [⟨1, [0, 0, 0]⟩] := by
    decide +kernel
  have hf : ¬WellFormed ⟨1, [0, 0, 0]⟩ := by
    apply (Protocol.Layout.not_writes_iff Protocol.decodeJoinRequest_eq_some_iff).mpr
    rfl
  have hend := ((hstops calm 7 ⟨new 0, []⟩ [shortJoin]).frame [] _ [] _ hframes (by simp) hf
    rfl).last_eq
  have hevents : (feedPieces calm 7 ⟨new 0, []⟩ [shortJoin]).2.1.events
      = [.sent 7 [0, 0, 0, 6, 0, 107, 0, 1, 0, 5] true] := by
    decide +kernel
  rw [hend] at hevents
  cases hevents

end RoomService

namespace Peer

/-- The server posts the frames that `handleDecodedFrame` says, and goes on as it says. -/
theorem handleDecodedFrame_eq (peer : Peer) (c : ConnId) (now : Int) (type : UInt16)
    (payload : Bytes) (answers : Answers) :
  (peer.handleDecodedFrame c now type payload).2.1
      = (RoomService.handleDecodedFrame answers (some c) type payload).2.1.toList.map
        (fun f => BaseTask.frame c f.type f.payload)
    ∧ ∀ result, (peer.handleDecodedFrame c now type payload).1 = some result →
      (RoomService.handleDecodedFrame answers (some c) type payload).1 = result
  := by
  rw [handleDecodedFrame, RoomService.handleDecodedFrame, if_neg (by simp)]
  have hsame : ∀ {verdict result : Bool}, some verdict = some result → verdict = result :=
    fun heq => Option.some.inj heq
  cases MessageType.ofU16 type with
  | none => exact ⟨rfl, fun result => hsame⟩
  | some t =>
    cases t
    case heartbeat =>
      dsimp only
      rw [handleHeartbeat, RoomService.handleHeartbeat, if_neg (by simp)]
      cases Protocol.decodeHeartbeatRequest payload with
      | none => exact ⟨rfl, fun result => hsame⟩
      | some request =>
        simp only [Protocol.encodeHeartbeatAck, encode_heartbeatAck]
        use rfl
        intro result h
        cases h
    all_goals exact ⟨rfl, fun result => hsame⟩

end Peer

end RoomServer
