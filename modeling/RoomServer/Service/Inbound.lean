import RoomServer.Net.Inbound
import RoomServer.Service.Intake
import RoomServer.Service.Removal

/-!
# From the socket to the service

What a client sends goes through the socket and the read buffer of its connection, is cut into
frames in the thread of the connection, and waits in the queue of the base loop until the
service handles it.  On the whole way nothing is lost, doubled or put out of order: the service
handles the requests in the bytes that were received, in their order and each of them once.  The
heartbeats among them are acknowledged in the thread of the connection, in their order and each
of them once.
-/

namespace RoomServer

/-! ### The frames on their way -/

/-- The frame is posted to the base loop. -/
def Frame.isRequest (f : Frame) : Bool :=
  requestTypes.any fun type => f.type == type.toU16

/-- The acknowledgement of a heartbeat; there is none for other frames, nor for a heartbeat that
does not have the layout of one. -/
def Frame.ack (f : Frame) : Option Bytes :=
  if f.type = MessageType.heartbeat.toU16 then
    (Protocol.decodeHeartbeatRequest f.payload).map fun request =>
      Codec.frameBytes ⟨MessageType.heartbeatAck.toU16, Protocol.appendU64 request.seq⟩
  else
    none

/-- The frame of a task, if it is one of the connection. -/
def BaseTask.frameOf (c : ConnId) : BaseTask → Option Frame
  | .frame c' type payload => if c' = c then some ⟨type, payload⟩ else none
  | .removeConnection _ => none

/-- The frame that the message callback takes off the buffer when it goes on, if there is one. -/
def Peer.nextFrame (peer : Peer) : List Frame :=
  match peer.decoding, Codec.next peer.io.connection.readBuffer with
  | .next, .frame type payload _ => [⟨type, payload⟩]
  | _, _ => []

/-- A server, with a record for each connection: the bytes its socket has given, the frames its
message callback has taken off them, and those of its frames that were handed to the service. -/
structure Watched where
  server : Server
  received : ConnId → Bytes
  decoded : ConnId → List Frame
  handled : ConnId → List Frame

namespace Watched

/-- What is read in a step. -/
def receivedIn (server : Server) (c : ConnId) : Server.Label → Bytes
  | .io c' label =>
    if c' = c then
      match server.peers c with
      | none => []
      | some peer => peer.io.eventReceived label
    else
      []
  | _ => []

/-- The frame that is decoded in a step. -/
def decodedIn (server : Server) (c : ConnId) : Server.Label → List Frame
  | .message c' _ =>
    if c' = c then
      match server.peers c with
      | none => []
      | some peer => peer.nextFrame
    else
      []
  | _ => []

/-- The frame that is handed to the service in a step. -/
def handledIn (server : Server) (c : ConnId) : Server.Label → List Frame
  | .task _ _ _ => (server.tasks.head?.bind (BaseTask.frameOf c)).toList
  | _ => []

/-- The system, with its record. -/
def system : System Watched Server.Label where
  Initial watched :=
    watched.server.Started ∧ (∀ c, watched.received c = []) ∧ (∀ c, watched.decoded c = [])
      ∧ ∀ c, watched.handled c = []
  Step watched label watched' :=
    watched.server.Step label watched'.server
      ∧ (∀ c, watched'.received c = watched.received c ++ receivedIn watched.server c label)
      ∧ (∀ c, watched'.decoded c = watched.decoded c ++ decodedIn watched.server c label)
      ∧ ∀ c, watched'.handled c = watched.handled c ++ handledIn watched.server c label

end Watched

/-! ### One frame -/

/-- A frame at the front of the buffer is taken off. -/
theorem Codec.content_of_next {buffer rest : Buffer} {type : UInt16} {payload : Bytes}
    (h : Codec.next buffer = .frame type payload rest) :
  buffer.content = Codec.frameBytes ⟨type, payload⟩ ++ rest.content
    ∧ Codec.Fits ⟨type, payload⟩
  := by
  have hread := Codec.readFrames_content buffer
  rw [h] at hread
  dsimp only at hread
  obtain hstream | hstream | ⟨f, tail, hf, hstream⟩ := Codec.stream_cases buffer.content
  · rw [Codec.readFrames_of_incomplete hstream] at hread
    cases hread
  · rw [Codec.readFrames_of_badLength hstream] at hread
    cases hread
  · have hrest := Codec.eq_flatMap_readFrames rest.content
    have htail := Codec.eq_flatMap_readFrames tail
    rw [hstream, Codec.readFrames_frame hf] at hread
    simp only [Codec.Reading.mk.injEq, List.cons.injEq] at hread
    obtain ⟨⟨rfl, hframes⟩, -, hleft⟩ := hread
    refine ⟨?_, hf⟩
    rw [hstream, htail, hframes, hleft, ← hrest]

/-- Frames at the front of a stream are the first ones that are read. -/
theorem Codec.readFrames_frames {fs : List Frame} (h : ∀ f ∈ fs, Codec.Fits f) (rest : Bytes) :
  (Codec.readFrames (fs.flatMap Codec.frameBytes ++ rest))
    = { Codec.readFrames rest with frames := fs ++ (Codec.readFrames rest).frames }
  := by
  induction fs with
  | nil => rfl
  | cons f fs ih =>
    rw [List.flatMap_cons, List.append_assoc, Codec.readFrames_frame (h f List.mem_cons_self),
      ih fun g hg => h g (List.mem_cons_of_mem _ hg)]
    rfl

theorem Frame.isRequest_iff {f : Frame} :
  f.isRequest = true ↔ ∃ type ∈ requestTypes, f.type = type.toU16
  := by
  simp [Frame.isRequest]

section OfType

variable {type : UInt16} {t : MessageType} (payload : Bytes)

theorem Frame.ack_of_heartbeat (h : MessageType.ofU16 type = some .heartbeat) :
  Frame.ack ⟨type, payload⟩ = (Protocol.decodeHeartbeatRequest payload).map fun request =>
    Codec.frameBytes ⟨MessageType.heartbeatAck.toU16, Protocol.appendU64 request.seq⟩
  := if_pos (MessageType.toU16_of_ofU16 h)

theorem Frame.ack_eq_none (h : MessageType.ofU16 type ≠ some .heartbeat) :
  Frame.ack ⟨type, payload⟩ = none
  := by
  apply if_neg
  intro heq
  apply h
  rw [show type = MessageType.heartbeat.toU16 from heq, MessageType.ofU16_toU16]

theorem Frame.isRequest_of_mem (h : MessageType.ofU16 type = some t) (hmem : t ∈ requestTypes) :
  Frame.isRequest ⟨type, payload⟩ = true
  := by
  apply Frame.isRequest_iff.mpr ⟨t, hmem, MessageType.toU16_of_ofU16 h⟩

theorem Frame.isRequest_eq_false (h : ∀ t, MessageType.ofU16 type = some t → t ∉ requestTypes) :
  Frame.isRequest ⟨type, payload⟩ = false
  := by
  by_contra hrequest
  rw [Bool.not_eq_false] at hrequest
  obtain ⟨t, hmem, heq⟩ := Frame.isRequest_iff.mp hrequest
  apply h t _ hmem
  rw [show type = t.toU16 from heq, MessageType.ofU16_toU16]

end OfType

/-- A heartbeat is acknowledged, unless it has no number. -/
theorem Peer.handleHeartbeat_eq (peer : Peer) (now : Int) (payload : Bytes) :
  peer.handleHeartbeat now payload
    = match (Protocol.decodeHeartbeatRequest payload).map fun request =>
        Codec.frameBytes ⟨MessageType.heartbeatAck.toU16, Protocol.appendU64 request.seq⟩ with
      | none => (some false, peer)
      | some data => (none, { peer.refreshPeerActivity now with
          io := (peer.refreshPeerActivity now).io.send data, decoding := .acking })
  := by
  rw [handleHeartbeat]
  cases Protocol.decodeHeartbeatRequest payload with
  | none => rfl
  | some request =>
    dsimp only
    rw [Protocol.encodeHeartbeatAck]
    dsimp only
    rw [encode_heartbeatAck]
    rfl

/-- What the thread of the connection makes of a frame: it refuses it, acknowledges it, or posts
it. -/
theorem Peer.handleDecodedFrame_of_frame (peer : Peer) (c : ConnId) (now : Int) (type : UInt16)
    (payload : Bytes) :
  (peer.handleDecodedFrame c now type payload = (some false, [], peer)
      ∧ Frame.isRequest ⟨type, payload⟩ = false ∧ Frame.ack ⟨type, payload⟩ = none)
    ∨ (∃ data, peer.handleDecodedFrame c now type payload
        = (none, [], { peer.refreshPeerActivity now with
          io := (peer.refreshPeerActivity now).io.send data, decoding := .acking })
      ∧ Frame.isRequest ⟨type, payload⟩ = false ∧ Frame.ack ⟨type, payload⟩ = some data)
    ∨ peer.handleDecodedFrame c now type payload
        = (some true, [.frame c type payload], peer.refreshPeerActivity now)
      ∧ Frame.isRequest ⟨type, payload⟩ = true ∧ Frame.ack ⟨type, payload⟩ = none
  := by
  have hposted : ∀ {t : MessageType}, MessageType.ofU16 type = some t → t ∈ requestTypes →
      t ≠ .heartbeat → Frame.isRequest ⟨type, payload⟩ = true
        ∧ Frame.ack ⟨type, payload⟩ = none := by
    intro t ht hmem hne
    use Frame.isRequest_of_mem payload ht hmem
    apply Frame.ack_eq_none
    rw [ht]
    exact fun heq => hne (Option.some.inj heq)
  rw [handleDecodedFrame]
  split
  · next htype =>
    have hrequest : Frame.isRequest ⟨type, payload⟩ = false := by
      apply Frame.isRequest_eq_false
      intro t ht
      rw [htype, Option.some.injEq] at ht
      rw [← ht]
      decide
    rw [handleHeartbeat_eq, ← Frame.ack_of_heartbeat payload htype]
    cases Frame.ack ⟨type, payload⟩ with
    | none => exact .inl ⟨rfl, hrequest, rfl⟩
    | some data => exact .inr (.inl ⟨data, rfl, hrequest, rfl⟩)
  · next htype => exact .inr (.inr ⟨rfl, hposted htype (by decide) (by decide)⟩)
  · next htype => exact .inr (.inr ⟨rfl, hposted htype (by decide) (by decide)⟩)
  · next htype => exact .inr (.inr ⟨rfl, hposted htype (by decide) (by decide)⟩)
  · next htype => exact .inr (.inr ⟨rfl, hposted htype (by decide) (by decide)⟩)
  · next htype => exact .inr (.inr ⟨rfl, hposted htype (by decide) (by decide)⟩)
  · next htype => exact .inr (.inr ⟨rfl, hposted htype (by decide) (by decide)⟩)
  · next hheartbeat hjoin hleave hchat hmove hattack hresume =>
    refine .inl ⟨rfl, ?_, Frame.ack_eq_none payload hheartbeat⟩
    apply Frame.isRequest_eq_false
    intro t ht hmem
    simp only [requestTypes, List.mem_cons, List.not_mem_nil, or_false] at hmem
    obtain rfl | rfl | rfl | rfl | rfl | rfl := hmem
    · exact hjoin ht
    · exact hleave ht
    · exact hchat ht
    · exact hmove ht
    · exact hattack ht
    · exact hresume ht

/-! ### One connection -/

namespace Peer

variable {peer : Peer} {received : Bytes} {decoded : List Frame}

/-- What was read are the frames that were decoded and what is in the buffer, and the sends of
the thread of the connection are the acknowledgements of the heartbeats among the frames. -/
structure Tracks (peer : Peer) (received : Bytes) (decoded : List Frame) : Prop where
  running : IoRun.system.Reachable peer.io
  orderly : peer.io.Orderly
  stream : received = decoded.flatMap Codec.frameBytes ++ peer.io.connection.readBuffer.content
  fits : ∀ f ∈ decoded, Codec.Fits f
  acks : (peer.io.ownSends.map fun s => s.data) = decoded.filterMap Frame.ack

theorem tracks_newPeer (fd : Nat) (now : Int) :
  (Server.newPeer fd now).Tracks [] []
  := by
  have hfresh : IoRun.Fresh ⟨.new now, 0, .ready, [], [], [], [], false, [], [], 0, []⟩ :=
    ⟨now, false, rfl⟩
  have hrunning : IoRun.system.Reachable
      ⟨.new now, 0, .ready, [], [], [], [], false, [], [], 0, []⟩ := .initial hfresh
  have hsame : IoRun.SameInput ⟨.new now, 0, .ready, [], [], [], [], false, [], [], 0, []⟩
      (Server.newPeer fd now).io := IoRun.sameInput_of_fields rfl id rfl rfl rfl
  constructor
  · apply hrunning.step (ℓ := IoRun.Label.queueInLoop .connectEstablished) trivial ⟨rfl, rfl⟩
  · apply hsame.orderly (IoRun.orderly_of_fresh hfresh)
  · apply (Buffer.content_new 4096).symm
  · intro f hf
    cases hf
  · rfl

/-- A step outside the callback adds what it reads. -/
theorem Tracks.follow (h : peer.Tracks received decoded) {io : IoRun} {data : Bytes}
    (hrunning : IoRun.system.Reachable io) (hfollows : peer.io.Follows io data) :
  Tracks { peer with io } (received ++ data) decoded
  where
  running := hrunning
  orderly := hfollows.orderly
  stream := by rw [h.stream, hfollows.content, List.append_assoc]
  fits := h.fits
  acks := by rw [hfollows.ownSends, h.acks]

/-- The callback answers its event. -/
theorem Tracks.answer (h : peer.Tracks received decoded) (hpc : peer.io.pc = .ready)
    {events : UInt32} (hcallers : peer.io.callers = [.handleEvent events]) {answer : Bool}
    (hnext : answer = true → ¬peer.io.Left →
      Codec.next peer.io.connection.readBuffer = .incomplete) :
  (peer.answer events [] answer).Tracks received decoded
  := by
  have hfollows := IoRun.resumeEvent_follows hpc hcallers hnext
  have hrunning := h.running.leads (answer_leads hpc hcallers answer)
  have htracks := h.follow hrunning hfollows
  rw [List.append_nil] at htracks
  exact { htracks with }

/-- The callback takes a frame off the buffer, and sends its acknowledgement if it has one. -/
theorem Tracks.takeFrame (h : peer.Tracks received decoded) {events : UInt32}
    (hpc : peer.io.pc = .ready) (hcallers : peer.io.callers = [.handleEvent events])
    {type : UInt16} {payload : Bytes} {rest : Buffer}
    (hnext : Codec.next peer.io.connection.readBuffer = .frame type payload rest)
    {peer' : Peer} (hrunning : IoRun.system.Reachable peer'.io) {connection : Connection}
    (hconnection : connection.readBuffer = rest)
    (hio : Frame.ack ⟨type, payload⟩ = none ∧ peer'.io = { peer.io with connection }
      ∨ ∃ data, Frame.ack ⟨type, payload⟩ = some data ∧ data ≠ []
        ∧ peer'.io = IoRun.send { peer.io with connection } data) :
  peer'.Tracks received (decoded ++ [⟨type, payload⟩])
  := by
  obtain ⟨hcontent, hfits⟩ := Codec.content_of_next hnext
  have hevent : peer.io.InEvent := by
    rw [IoRun.InEvent, hcallers]
    exact ⟨events, List.mem_cons_self⟩
  have horderly := h.orderly.inCallback hevent connection
  have hstream : received = (decoded ++ [(⟨type, payload⟩ : Frame)]).flatMap Codec.frameBytes
      ++ connection.readBuffer.content := by
    rw [h.stream, hcontent, hconnection, List.flatMap_append, List.flatMap_singleton,
      List.append_assoc]
  have hfits' : ∀ f ∈ decoded ++ [(⟨type, payload⟩ : Frame)], Codec.Fits f := by
    intro f hf
    obtain hf | hf := List.mem_append.mp hf
    · apply h.fits f hf
    · rw [List.mem_singleton.mp hf]
      exact hfits
  obtain ⟨hack, hio⟩ | ⟨data, hack, hdata, hio⟩ := hio
  · constructor
    · exact hrunning
    · rw [hio]
      exact horderly
    · rw [hio]
      exact hstream
    · exact hfits'
    · rw [hio, List.filterMap_append, List.filterMap_cons_none hack, List.filterMap_nil,
        List.append_nil, ← h.acks]
      rfl
  · obtain ⟨hsend, hown⟩ := IoRun.send_ownSends horderly hpc hcallers hdata
    constructor
    · exact hrunning
    · rw [hio]
      exact hsend
    · rw [hio, IoRun.send, if_neg hdata]
      exact hstream
    · exact hfits'
    · rw [hio, hown, List.map_append, List.filterMap_append, List.filterMap_cons_some hack,
        List.filterMap_nil, ← h.acks]
      rfl

/-- The callback takes off one frame at most, and posts it if it is a request. -/
structure Handles (peer : Peer) (c : ConnId) (received : Bytes) (decoded : List Frame)
    (tasks : List BaseTask) (peer' : Peer) : Prop where
  tracks : peer'.Tracks received (decoded ++ peer.nextFrame)
  posts : tasks.filterMap (BaseTask.frameOf c) = peer.nextFrame.filter Frame.isRequest
  only : ∀ c' ≠ c, tasks.filterMap (BaseTask.frameOf c') = []

/-- The callback takes off no frame. -/
theorem handles_of_none {c : ConnId} {peer' : Peer} (hnone : peer.nextFrame = [])
    (h : peer'.Tracks received decoded) :
  peer.Handles c received decoded [] peer'
  where
  tracks := by
    rw [hnone, List.append_nil]
    exact h
  posts := by rw [hnone]; rfl
  only _ _ := rfl

theorem ack_ne_nil {f : Frame} {data : Bytes} (h : f.ack = some data) : data ≠ [] := by
  rw [Frame.ack] at h
  split at h
  · obtain ⟨request, -, rfl⟩ := Option.map_eq_some_iff.mp h
    intro hnil
    have hlength := Codec.length_frameBytes
      ⟨MessageType.heartbeatAck.toU16, Protocol.appendU64 request.seq⟩
    rw [hnil] at hlength
    simp at hlength
  · cases h

/-- The callback handles the next frame: it ends with an answer, it sends an acknowledgement, or
it has posted the frame. -/
theorem Tracks.handleFrame (h : peer.Tracks received decoded) (c : ConnId) (now : Int)
    {events : UInt32} (hpc : peer.io.pc = .ready)
    (hcallers : peer.io.callers = [.handleEvent events])
    (hdecoding : peer.decoding = .next) {type : UInt16} {payload : Bytes} {rest : Buffer}
    (hnext : Codec.next peer.io.connection.readBuffer = .frame type payload rest) :
  peer.Handles c received decoded (peer.handleMessage c now events []).1
    (peer.handleMessage c now events []).2
  := by
  have hone : peer.nextFrame = [⟨type, payload⟩] := by rw [nextFrame, hdecoding, hnext]
  have hcallback : peer.io.AtCallback := ⟨hpc, _, _, hcallers, trivial⟩
  have hbuffer := h.running.step (ℓ := IoRun.Label.setReadBuffer rest) trivial ⟨hcallback, rfl⟩
  have hsame : (Connection.refreshPeerActivity
      { peer.io.connection with readBuffer := rest } now).readBuffer = rest := by
    rw [Connection.refreshPeerActivity]
    split <;> rfl
  have hrunning := h.running.leads (handleMessage_leads c now hpc hcallers)
  rw [Peer.handleMessage, hdecoding] at hrunning ⊢
  dsimp only at hrunning ⊢
  rw [hnext] at hrunning ⊢
  dsimp only at hrunning ⊢
  obtain ⟨heq, hrequest, hack⟩ | ⟨data, heq, hrequest, hack⟩ | ⟨heq, hrequest, hack⟩ :=
    handleDecodedFrame_of_frame { peer with
      io := { peer.io with connection := { peer.io.connection with readBuffer := rest } } }
      c now type payload <;>
    rw [hdecoding] at heq
  · rw [heq]
    constructor
    · rw [hone]
      have htaken : Peer.Tracks { peer with io := { peer.io with
          connection := { peer.io.connection with readBuffer := rest } } } received
          (decoded ++ [⟨type, payload⟩]) :=
        h.takeFrame hpc hcallers hnext hbuffer rfl (.inl ⟨hack, rfl⟩)
      apply htaken.answer hpc hcallers
      rintro ⟨⟩
    · rw [hone, List.filter_cons_of_neg (by simp [hrequest])]
      rfl
    · intro c' _
      rfl
  · rw [heq] at hrunning ⊢
    constructor
    · rw [hone]
      exact h.takeFrame hpc hcallers hnext hrunning hsame (.inr ⟨data, hack, ack_ne_nil hack, rfl⟩)
    · rw [hone, List.filter_cons_of_neg (by simp [hrequest])]
      rfl
    · intro c' _
      rfl
  · rw [heq] at hrunning ⊢
    constructor
    · rw [hone]
      exact h.takeFrame hpc hcallers hnext hrunning hsame (.inl ⟨hack, rfl⟩)
    · rw [hone, List.filter_cons_of_pos hrequest]
      simp [BaseTask.frameOf]
    · intro c' hc'
      simp [BaseTask.frameOf, hc'.symm]

/-- The callback is behind the send of an acknowledgement. -/
theorem Tracks.handleAcking (h : peer.Tracks received decoded) (c : ConnId) (now : Int)
    {events : UInt32} (hpc : peer.io.pc = .ready)
    (hcallers : peer.io.callers = [.handleEvent events])
    (hdecoding : peer.decoding = .acking) :
  peer.Handles c received decoded (peer.handleMessage c now events []).1
    (peer.handleMessage c now events []).2
  := by
  have hnone : peer.nextFrame = [] := by rw [nextFrame, hdecoding]
  have hrunning := h.running.leads (handleMessage_leads c now hpc hcallers)
  rw [Peer.handleMessage, hdecoding] at hrunning ⊢
  dsimp only at hrunning ⊢
  split at hrunning
  · next hresult =>
    rw [if_pos hresult]
    apply handles_of_none hnone
    exact { h with }
  · next hresult =>
    rw [if_neg hresult]
    have hfollows := (IoRun.handleClose_sameInput (by rw [hpc]; rfl)).follows h.orderly
    have htracks := h.follow hrunning hfollows
    rw [List.append_nil] at htracks
    apply handles_of_none hnone
    exact { htracks with }

theorem Tracks.handleMessage (h : peer.Tracks received decoded) (c : ConnId) (now : Int)
    {events : UInt32} {callers : List IoRun.Caller} (hpc : peer.io.pc = .ready)
    (hcallers : peer.io.callers = .handleEvent events :: callers) :
  peer.Handles c received decoded (peer.handleMessage c now events callers).1
    (peer.handleMessage c now events callers).2
  := by
  have hlast := h.orderly.last
  rw [hcallers] at hlast
  obtain rfl : callers = [] := hlast
  cases hdecoding : peer.decoding with
  | next =>
    cases hnext : Codec.next peer.io.connection.readBuffer with
    | incomplete =>
      have hnone : peer.nextFrame = [] := by rw [nextFrame, hdecoding, hnext]
      rw [Peer.handleMessage, hdecoding]
      dsimp only
      rw [hnext]
      apply handles_of_none hnone
      apply h.answer hpc hcallers fun _ _ => hnext
    | badLength =>
      have hnone : peer.nextFrame = [] := by rw [nextFrame, hdecoding, hnext]
      rw [Peer.handleMessage, hdecoding]
      dsimp only
      rw [hnext]
      apply handles_of_none hnone
      apply h.answer hpc hcallers
      rintro ⟨⟩
    | frame type payload rest => apply h.handleFrame c now hpc hcallers hdecoding hnext
  | acking => apply h.handleAcking c now hpc hcallers hdecoding
  | refused =>
    have hnone : peer.nextFrame = [] := by rw [nextFrame, hdecoding]
    rw [Peer.handleMessage, hdecoding]
    apply handles_of_none hnone
    apply h.answer hpc hcallers
    rintro ⟨⟩

/-- The close callback returns, or a functor is queued. -/
theorem Tracks.same (h : peer.Tracks received decoded) {io : IoRun}
    (hleads : IoRun.system.Leads peer.io io) (hsame : peer.io.SameInput io) :
  Tracks { peer with io } received decoded
  := by
  have htracks := h.follow (h.running.leads hleads) (hsame.follows h.orderly)
  rwa [List.append_nil] at htracks

end Peer

/-! ### The server -/

namespace Watched

open Server

variable {watched watched' : Watched} {label : Server.Label}

/-- Every connection is tracked, and the requests that were decoded were handed to the service,
or wait for the base loop. -/
structure Inv (watched : Watched) : Prop where
  tracks : ∀ c peer, watched.server.peers c = some peer →
    peer.Tracks (watched.received c) (watched.decoded c)
  absent : ∀ c, watched.server.peers c = none →
    watched.received c = [] ∧ watched.decoded c = [] ∧ watched.handled c = []
  requests : ∀ c, (watched.decoded c).filter Frame.isRequest
    = watched.handled c ++ watched.server.tasks.filterMap (BaseTask.frameOf c)

/-- What a step adds to the records of a connection, and where its tasks go. -/
structure Moves (watched : Watched) (label : Server.Label) (server' : Server) : Prop where
  tracks : ∀ c peer', server'.peers c = some peer' →
    peer'.Tracks (watched.received c ++ receivedIn watched.server c label)
      (watched.decoded c ++ decodedIn watched.server c label)
  absent : ∀ c, server'.peers c = none → watched.server.peers c = none
    ∧ receivedIn watched.server c label = [] ∧ decodedIn watched.server c label = []
    ∧ handledIn watched.server c label = []
  requests : ∀ c, watched.server.tasks.filterMap (BaseTask.frameOf c)
      ++ (decodedIn watched.server c label).filter Frame.isRequest
    = handledIn watched.server c label ++ server'.tasks.filterMap (BaseTask.frameOf c)

/-- One connection takes a step, and posts tasks. -/
theorem Inv.moves_of_setPeer (h : watched.Inv) {c : ConnId} {peer' : Peer} {server' : Server}
    {tasks : List BaseTask}
    (hpeers : server'.peers = (watched.server.setPeer c peer').peers)
    (htasks : server'.tasks = watched.server.tasks ++ tasks)
    (htracks : peer'.Tracks (watched.received c ++ receivedIn watched.server c label)
      (watched.decoded c ++ decodedIn watched.server c label))
    (hposts : tasks.filterMap (BaseTask.frameOf c)
      = (decodedIn watched.server c label).filter Frame.isRequest)
    (hothers : ∀ c' ≠ c, receivedIn watched.server c' label = []
      ∧ decodedIn watched.server c' label = [] ∧ tasks.filterMap (BaseTask.frameOf c') = [])
    (hhandled : ∀ c', handledIn watched.server c' label = []) :
  watched.Moves label server'
  := by
  constructor
  · intro c' p hp
    rw [hpeers, peers_setPeer] at hp
    split at hp
    · next heq =>
      cases hp
      rw [heq]
      exact htracks
    · next hne =>
      obtain ⟨hreceived, hdecoded, -⟩ := hothers c' hne
      rw [hreceived, hdecoded, List.append_nil, List.append_nil]
      apply h.tracks c' p hp
  · intro c' hnone
    rw [hpeers, peers_setPeer] at hnone
    split at hnone
    · cases hnone
    · next hne =>
      obtain ⟨hreceived, hdecoded, -⟩ := hothers c' hne
      exact ⟨hnone, hreceived, hdecoded, hhandled c'⟩
  · intro c'
    rw [htasks, hhandled, List.nil_append, List.filterMap_append]
    by_cases heq : c' = c
    · rw [heq, hposts]
    · obtain ⟨-, hdecoded, hnone⟩ := hothers c' heq
      rw [hdecoded, hnone, List.filter_nil]

theorem outside_of_connection {label : IoRun.Label} (h : OfConnection label) : label.Outside := by
  cases label <;> trivial

/-- The close callback returns. -/
theorem closed_sameInput {run : IoRun} {callers : List IoRun.Caller}
    (h : run.callers = .handleClose :: callers) :
  run.SameInput { run with callers }
  := by
  constructor
  · rfl
  · exact id
  · intro hlast
    rw [h] at hlast
    exact hlast
  · rintro ⟨events, hevent⟩
    rw [h] at hevent
    obtain heq | hevent := List.mem_cons.mp hevent
    · cases heq
    · exact .inr ⟨events, hevent⟩
  · rw [IoRun.inProgress, IoRun.inProgress, h]
    rfl
  · rfl

/-- No connection takes a step, and no task is posted or taken. -/
theorem Inv.moves_of_service (h : watched.Inv) {server' : Server}
    (hpeers : server'.peers = watched.server.peers)
    (htasks : server'.tasks = watched.server.tasks)
    (hreceived : ∀ c, receivedIn watched.server c label = [])
    (hdecoded : ∀ c, decodedIn watched.server c label = [])
    (hhandled : ∀ c, handledIn watched.server c label = []) :
  watched.Moves label server'
  := by
  constructor
  · intro c peer hpeer
    rw [hpeers] at hpeer
    rw [hreceived, hdecoded, List.append_nil, List.append_nil]
    apply h.tracks c peer hpeer
  · intro c hnone
    rw [hpeers] at hnone
    exact ⟨hnone, hreceived c, hdecoded c, hhandled c⟩
  · intro c
    rw [htasks, hdecoded, hhandled, List.filter_nil, List.append_nil, List.nil_append]

/-- A connection that is accepted has no record yet. -/
theorem Inv.moves_of_accept (h : watched.Inv) {c : ConnId} (hc : watched.server.peers c = none)
    (fd : Nat) (now : Int) :
  watched.Moves (.accept c fd now) (watched.server.handleAccept c fd now)
  := by
  rw [handleAccept]
  split
  · exact h.moves_of_service rfl rfl (fun _ => rfl) (fun _ => rfl) fun _ => rfl
  · obtain ⟨hreceived, hdecoded, -⟩ := h.absent c hc
    refine h.moves_of_setPeer (c := c) rfl (List.append_nil _).symm ?_ rfl ?_ fun _ => rfl
    · rw [hreceived, hdecoded]
      apply Peer.tracks_newPeer
    · intro c' _
      exact ⟨rfl, rfl, rfl⟩

/-- The base loop takes a task. -/
theorem Inv.moves_of_task (h : watched.Inv) {task : BaseTask} {tasks : List BaseTask}
    (htasks : watched.server.tasks = task :: tasks) (answers : Answers) (token : Bytes)
    (now : Int) {server' : Server} (htasks' : server'.tasks = tasks)
    (hpeers : ∀ c peer', server'.peers c = some peer' →
      peer'.Tracks (watched.received c) (watched.decoded c))
    (hnone : ∀ c, server'.peers c = none → watched.server.peers c = none) :
  watched.Moves (.task answers token now) server'
  := by
  have hhead : ∀ c, watched.server.tasks.filterMap (BaseTask.frameOf c)
      = handledIn watched.server c (.task answers token now)
        ++ tasks.filterMap (BaseTask.frameOf c) := by
    intro c
    rw [handledIn, htasks, List.head?_cons, Option.bind_some]
    cases hframe : task.frameOf c with
    | none => rw [List.filterMap_cons_none hframe]; rfl
    | some f => rw [List.filterMap_cons_some hframe]; rfl
  constructor
  · intro c peer' hpeer
    have htracks := hpeers c peer' hpeer
    rw [← List.append_nil (watched.received c), ← List.append_nil (watched.decoded c)] at htracks
    exact htracks
  · intro c hc
    have habsent := h.absent c (hnone c hc)
    have hrequests := h.requests c
    rw [habsent.2.1, habsent.2.2, hhead] at hrequests
    have hnil := List.append_eq_nil_iff.mp hrequests.symm
    exact ⟨hnone c hc, rfl, rfl, (List.append_eq_nil_iff.mp hnil.2).1⟩
  · intro c
    rw [htasks', hhead]
    apply List.append_nil

/-- The loop of a connection takes a step. -/
theorem Inv.moves_of_io (h : watched.Inv) {c : ConnId} {label : IoRun.Label} {server' : Server}
    (hstep : watched.server.Step (.io c label) server') :
  watched.Moves (.io c label) server'
  := by
  obtain ⟨peer, io, hpeer, hof, hio, rfl⟩ := hstep
  have htracks := h.tracks c peer hpeer
  have hfollows := IoRun.step_follows htracks.orderly
    (IoRun.refines_of_reachable htracks.running).1 (outside_of_connection hof) hio
  have hreceived : receivedIn watched.server c (.io c label) = peer.io.eventReceived label := by
    rw [receivedIn, if_pos rfl, hpeer]
  refine h.moves_of_setPeer rfl (List.append_nil _).symm ?_ rfl ?_ fun _ => rfl
  · rw [hreceived, show decodedIn watched.server c (.io c label) = [] from rfl, List.append_nil]
    apply htracks.follow (htracks.running.step trivial hio) hfollows
  · intro c' hne
    exact ⟨if_neg hne.symm, rfl, rfl⟩

/-- The service decodes the bytes of a connection. -/
theorem Inv.moves_of_message (h : watched.Inv) {c : ConnId} {now : Int} {server' : Server}
    (hstep : watched.server.Step (.message c now) server') :
  watched.Moves (.message c now) server'
  := by
  obtain ⟨peer, events, callers, hpeer, hpc, hcallers, rfl⟩ := hstep
  have hhandles := (h.tracks c peer hpeer).handleMessage c now hpc hcallers
  have hdecoded : decodedIn watched.server c (.message c now) = peer.nextFrame := by
    rw [decodedIn, if_pos rfl, hpeer]
  refine h.moves_of_setPeer rfl rfl ?_ ?_ ?_ ?_
  · rw [hdecoded, show receivedIn watched.server c (.message c now) = [] from rfl,
      List.append_nil]
    apply hhandles.tracks
  · rw [hdecoded]
    apply hhandles.posts
  · intro c' hne
    exact ⟨rfl, if_neg hne.symm, hhandles.only c' hne⟩
  · exact fun _ => rfl

/-- The server is told that a connection has closed. -/
theorem Inv.moves_of_closed (h : watched.Inv) {c : ConnId} {server' : Server}
    (hstep : watched.server.Step (.closed c) server') :
  watched.Moves (.closed c) server'
  := by
  obtain ⟨peer, callers, hpeer, hpc, hcallers, rfl⟩ := hstep
  have hleads : IoRun.system.Leads peer.io { peer.io with callers } := by
    apply System.Leads.refl.step (ℓ := IoRun.Label.resume true)
    exact ⟨hpc, .handleClose, callers, hcallers, trivial, rfl⟩
  refine h.moves_of_setPeer rfl rfl ?_ ?_ ?_ ?_
  · have htracks := (h.tracks c peer hpeer).same hleads (closed_sameInput hcallers)
    rw [← List.append_nil (watched.received c), ← List.append_nil (watched.decoded c)] at htracks
    exact htracks
  · rfl
  · intro c' _
    exact ⟨rfl, rfl, rfl⟩
  · exact fun _ => rfl

/-- The base loop removes a connection, and has its loop take it down. -/
theorem Inv.moves_of_removal (h : watched.Inv) {c : ConnId} {tasks : List BaseTask}
    (htasks : watched.server.tasks = .removeConnection c :: tasks) (answers : Answers)
    (token : Bytes) (now : Int) :
  watched.Moves (.task answers token now)
    ({ watched.server with tasks }.removeConnectionInLoop c now)
  := by
  rw [removeConnectionInLoop]
  split
  · exact h.moves_of_task htasks answers token now rfl h.tracks fun _ => id
  next peer hpeer =>
  split
  · refine h.moves_of_task htasks answers token now rfl ?_ ?_
    · intro c' peer' hpeer'
      change Function.update watched.server.peers c _ c' = _ at hpeer'
      rw [Function.update_apply] at hpeer'
      split at hpeer'
      · next heq =>
        cases hpeer'
        rw [heq]
        apply (h.tracks c peer hpeer).same
        · apply System.Leads.refl.step (ℓ := IoRun.Label.queueInLoop .connectDestroyed)
          exact ⟨rfl, rfl⟩
        · exact IoRun.sameInput_of_fields rfl id rfl rfl rfl
      · apply h.tracks c' peer' hpeer'
    · intro c' hnone
      change Function.update watched.server.peers c _ c' = _ at hnone
      rw [Function.update_apply] at hnone
      split at hnone
      · cases hnone
      · exact hnone
  · exact h.moves_of_task htasks answers token now rfl h.tracks fun _ => id

theorem step_moves (h : watched.Inv) {server' : Server}
    (hstep : watched.server.Step label server') :
  watched.Moves label server'
  := by
  cases label with
  | io c label => apply h.moves_of_io hstep
  | message c now => apply h.moves_of_message hstep
  | closed c => apply h.moves_of_closed hstep
  | accept c fd now =>
    obtain ⟨hc, rfl⟩ := hstep
    apply h.moves_of_accept hc fd now
  | task answers token now =>
    obtain ⟨task, tasks, htasks, rfl⟩ := hstep
    cases task with
    | frame c type payload =>
      exact h.moves_of_task htasks answers token now rfl h.tracks fun _ => id
    | removeConnection c => exact h.moves_of_removal htasks answers token now
  | tick answers expirations =>
    rw [show server' = _ from hstep]
    exact h.moves_of_service rfl rfl (fun _ => rfl) (fun _ => rfl) fun _ => rfl
  | sessionTimeouts answers now =>
    rw [show server' = _ from hstep]
    exact h.moves_of_service rfl rfl (fun _ => rfl) (fun _ => rfl) fun _ => rfl
  | reorder =>
    obtain ⟨service, connections, -, -, rfl⟩ := hstep
    exact h.moves_of_service rfl rfl (fun _ => rfl) (fun _ => rfl) fun _ => rfl

theorem step_inv (h : watched.Inv) (hstep : system.Step watched label watched') :
  watched'.Inv
  := by
  obtain ⟨hserver, hreceived, hdecoded, hhandled⟩ := hstep
  have hmoves := step_moves h hserver
  constructor
  · intro c peer hpeer
    rw [hreceived, hdecoded]
    apply hmoves.tracks c peer hpeer
  · intro c hnone
    obtain ⟨hnone, hnoBytes, hnoFrame, hnoTask⟩ := hmoves.absent c hnone
    obtain ⟨hreceived', hdecoded', hhandled'⟩ := h.absent c hnone
    rw [hreceived, hdecoded, hhandled, hreceived', hdecoded', hhandled', hnoBytes, hnoFrame,
      hnoTask]
    exact ⟨rfl, rfl, rfl⟩
  · intro c
    rw [hdecoded, hhandled, List.filter_append, h.requests, List.append_assoc, hmoves.requests,
      List.append_assoc]

theorem inv_of_reachable (h : system.Reachable watched) : watched.Inv := by
  apply h.invariant
  · rintro watched ⟨⟨service, -, hserver⟩, hreceived, hdecoded, hhandled⟩
    constructor
    · intro c peer hpeer
      rw [hserver] at hpeer
      cases hpeer
    · intro c _
      exact ⟨hreceived c, hdecoded c, hhandled c⟩
    · intro c
      rw [hdecoded, hhandled, hserver]
      rfl
  · intro watched label watched' hinv _ hstep
    apply step_inv hinv hstep

/-- The frames that were decoded are the first ones of the bytes that were received, and all of
them when the loop is back at its wait with the connection still open. -/
theorem Inv.readFrames_received (h : watched.Inv) {c : ConnId} {peer : Peer}
    (hpeer : watched.server.peers c = some peer) :
  watched.decoded c <+: (Codec.readFrames (watched.received c)).frames
    ∧ (peer.io.AtLoop → ¬peer.io.Left →
      watched.decoded c = (Codec.readFrames (watched.received c)).frames
        ∧ (Codec.readFrames (watched.received c)).good = true)
  := by
  have htracks := h.tracks c peer hpeer
  rw [htracks.stream, Codec.readFrames_frames htracks.fits]
  use List.prefix_append _ _
  rintro ⟨-, hcallers⟩ hleft
  have hout : ¬peer.io.InEvent := by
    rintro ⟨events, hevent⟩
    rw [hcallers] at hevent
    cases hevent
  have hincomplete := htracks.orderly.settled hleft hout
  rw [Codec.readFrames_content, hincomplete, List.append_nil]
  exact ⟨rfl, rfl⟩

/-! ### Nothing is lost, doubled or put out of order -/

/-- What a socket has given are the frames that were taken off its bytes and what is still in
the buffer.  The requests among the frames were handed to the service in their order and once
each, but for those that wait for the base loop.  When the loop of a connection that is still
open is at its wait, these are all the requests it was sent. -/
structure KeepsRequests (watched : Watched) (c : ConnId) (peer : Peer) : Prop where
  stream : watched.received c
    = (watched.decoded c).flatMap Codec.frameBytes ++ peer.io.connection.readBuffer.content
  decoded : watched.decoded c <+: (Codec.readFrames (watched.received c)).frames
  handled : watched.handled c ++ watched.server.tasks.filterMap (BaseTask.frameOf c)
    = (watched.decoded c).filter Frame.isRequest
  all : peer.io.AtLoop → ¬peer.io.Left →
    watched.handled c ++ watched.server.tasks.filterMap (BaseTask.frameOf c)
      = (Codec.readFrames (watched.received c)).frames.filter Frame.isRequest

theorem requests_of_reachable (h : system.Reachable watched) {c : ConnId} {peer : Peer}
    (hpeer : watched.server.peers c = some peer) :
  watched.KeepsRequests c peer
  := by
  have hinv := inv_of_reachable h
  obtain ⟨hfirst, hall⟩ := hinv.readFrames_received hpeer
  constructor
  · apply (hinv.tracks c peer hpeer).stream
  · exact hfirst
  · apply (hinv.requests c).symm
  · intro hloop hleft
    rw [← (hall hloop hleft).1]
    apply (hinv.requests c).symm

/-- The acknowledgements of a connection are those of the heartbeats that were taken off its
bytes, in their order and each of them once; if it is still open, those of all heartbeats it
was sent. -/
structure AcksHeartbeats (watched : Watched) (c : ConnId) (peer : Peer) : Prop where
  decoded : ((peer.io.returned.map Prod.fst).filter (·.sender = .loop)).map (·.data)
    = (watched.decoded c).filterMap Frame.ack
  all : ¬peer.io.Left → ((peer.io.returned.map Prod.fst).filter (·.sender = .loop)).map (·.data)
    = (Codec.readFrames (watched.received c)).frames.filterMap Frame.ack

theorem acks_of_reachable (h : system.Reachable watched) {c : ConnId} {peer : Peer}
    (hpeer : watched.server.peers c = some peer) (hloop : peer.io.AtLoop) :
  watched.AcksHeartbeats c peer
  := by
  have hinv := inv_of_reachable h
  have hacks := (hinv.tracks c peer hpeer).acks
  have hnone : peer.io.inProgress = [] := by
    rw [IoRun.inProgress, hloop.1, hloop.2]
    rfl
  rw [IoRun.ownSends, hnone, List.append_nil] at hacks
  constructor
  · exact hacks
  · intro hleft
    rw [← ((hinv.readFrames_received hpeer).2 hloop hleft).1]
    exact hacks

/-! ### A heartbeat and a request -/

/-- The server is reached with these records of the connection 7. -/
def Recorded (server : Server) (received : Bytes) (decoded handled : List Frame) : Prop :=
  ∃ watched, system.Reachable watched ∧ watched.server = server ∧ watched.received 7 = received
    ∧ watched.decoded 7 = decoded ∧ watched.handled 7 = handled

section Recorded

variable {server server' : Server} {received : Bytes} {decoded handled : List Frame}
  {peer : Peer} {tasks : List BaseTask}

theorem Recorded.step (h : Recorded server received decoded handled)
    (hstep : server.Step label server') :
  Recorded server' (received ++ receivedIn server 7 label) (decoded ++ decodedIn server 7 label)
    (handled ++ handledIn server 7 label)
  := by
  obtain ⟨watched, hreachable, rfl, rfl, rfl, rfl⟩ := h
  use ⟨server', fun c => watched.received c ++ receivedIn watched.server c label,
    fun c => watched.decoded c ++ decodedIn watched.server c label,
    fun c => watched.handled c ++ handledIn watched.server c label⟩
  use hreachable.step trivial ⟨hstep, fun _ => rfl, fun _ => rfl, fun _ => rfl⟩

theorem Recorded.io (h : Recorded (serving opened peer tasks) received decoded handled) {io : IoRun}
    (label : IoRun.Label) (hof : OfConnection label) (hstep : peer.io.Step label io) :
  Recorded (serving opened { peer with io } tasks) (received ++ peer.io.eventReceived label) decoded
    handled
  := by
  have hstep' : (serving opened peer tasks).Step (.io 7 label)
      (serving opened { peer with io } tasks) := by
    refine ⟨peer, io, rfl, hof, hstep, ?_⟩
    rw [serving, serving, setPeer, Function.update_idem]
  have hnext := h.step hstep'
  simpa [receivedIn, decodedIn, handledIn, serving] using hnext

theorem Recorded.message (h : Recorded (serving opened peer tasks) received decoded handled)
    {events : UInt32} {callers : List IoRun.Caller} (hpc : peer.io.pc = .ready)
    (hcallers : peer.io.callers = .handleEvent events :: callers) :
  Recorded (serving opened (peer.handleMessage 7 0 events callers).2
    (tasks ++ (peer.handleMessage 7 0 events callers).1)) received (decoded ++ peer.nextFrame)
    handled
  := by
  have hstep : (serving opened peer tasks).Step (.message 7 0) (serving opened
      (peer.handleMessage 7 0 events callers).2
      (tasks ++ (peer.handleMessage 7 0 events callers).1)) := by
    refine ⟨peer, events, callers, rfl, hpc, hcallers, ?_⟩
    rw [serving, serving, setPeer, Function.update_idem]
  have hnext := h.step hstep
  simpa [receivedIn, decodedIn, handledIn, serving] using hnext

end Recorded

/-- The acknowledgement was written. -/
def written : IoRun :=
  ((granted.sendInLoop Server.ack).writeToSocket none (.written 14)).writeToSocket none .wouldBlock

/-- The acknowledgement has returned. -/
def acked : Peer where
  fd := 5
  io := { written.updateFd true with
    callers := [.handleEvent Connection.epollIn]
    returned := written.returned ++ [(Server.ack, true)]
    result := true }
  decoding := .acking

attribute [local irreducible] acking in
theorem acked_recorded :
  Recorded (serving opened acked []) (heartbeatFrame ++ joinFrame)
    [⟨6, [0, 0, 0, 0, 0, 0, 0, 1]⟩] []
  := by
  have hstarted : Recorded ⟨fun _ => none, ∅, [], opened, []⟩ [] [] [] := by
    refine ⟨⟨⟨fun _ => none, ∅, [], opened, []⟩, fun _ => [], fun _ => [], fun _ => []⟩,
      .initial ⟨⟨opened, ?_, rfl⟩, fun _ => rfl, fun _ => rfl, fun _ => rfl⟩, rfl, rfl, rfl, rfl⟩
    apply System.ReachableBy.step (ℓ := .addRoom 1 2) _ (.inl ⟨1, 2, rfl⟩) rfl
    exact .initial ⟨30000, rfl⟩
  have haccepted : Recorded (serving opened (newPeer 5 0) []) [] [] [] :=
    hstarted.step (show Server.Step _ (.accept 7 5 0) _ from ⟨rfl, rfl⟩)
  have hswap := haccepted.io .doPendingFunctors trivial ⟨⟨rfl, rfl⟩, rfl, rfl⟩
  have hconnected := hswap.io (.functor 0 true) trivial ⟨⟨rfl, rfl⟩, _, _, rfl, rfl⟩
  have hreading : Recorded (serving opened reading []) (heartbeatFrame ++ joinFrame) [] [] :=
    hconnected.io (.event Connection.epollIn [.received (heartbeatFrame ++ joinFrame), .wouldBlock])
      trivial ⟨⟨rfl, rfl⟩, rfl, rfl⟩
  have hacking := hreading.message rfl rfl
  rw [reading_handleMessage,
    show reading.nextFrame = [⟨6, [0, 0, 0, 0, 0, 0, 0, 1]⟩] by decide +kernel] at hacking
  have hpending : acking.connection.pendingWriteBytes = 0 := by decide +kernel
  have hattempt : acking.connection.reserveWriteBytes Server.ack.data.length false .load
      = (.retry 0, acking.connection) := by
    rw [Connection.reserveWriteBytes, if_neg (by decide), hpending]
    rfl
  have hexchange : acking.connection.reserveWriteBytes Server.ack.data.length false (.exchange 0)
      = (.granted, { acking.connection with pendingWriteBytes := 14 }) := by
    rw [Connection.reserveWriteBytes, hpending]
    rfl
  have hload := hacking.io (.reserve false (.retry 0)) trivial
    ⟨Server.ack, .load, acking.connection, by decide +kernel, hattempt, rfl⟩
  have hgranted : Recorded (serving opened ⟨5, granted, .acking⟩ []) _ _ _ :=
    hload.io (.reserve false .granted) trivial
      ⟨Server.ack, .exchange 0, { acking.connection with pendingWriteBytes := 14 }, rfl, hexchange,
        rfl⟩
  have hsending := hgranted.io .sendInLoop trivial ⟨Server.ack, rfl, rfl⟩
  have hsent := hsending.io (.writeToSocket (.written 14)) trivial ⟨none, by decide +kernel, rfl⟩
  have hwritten : Recorded (serving opened ⟨5, written, .acking⟩ []) _ _ _ :=
    hsent.io (.writeToSocket .wouldBlock) trivial ⟨none, by decide +kernel, rfl⟩
  have harmed := hwritten.io (.updateFd true) trivial ⟨by decide +kernel, rfl⟩
  exact harmed.io .sent trivial ⟨by decide +kernel, Server.ack, [.handleEvent Connection.epollIn],
    by decide +kernel, rfl⟩

/-- The request was posted behind the acknowledgement. -/
def posted : Peer := ({ acked with decoding := .next }.handleMessage 7 0 Connection.epollIn []).2

/-- The message callback has returned. -/
def finished : Peer := (posted.handleMessage 7 0 Connection.epollIn []).2

/-- The loop is back at its wait. -/
def settled : Peer := { finished with io := finished.io.updateFd true }

/-- The service has the request. -/
def answered : Server :=
  { serving opened settled [] with
    service := (opened.run takeAll (.frame (some 7) 1 joinPayload [1] 0)).1 }

theorem answered_recorded :
  Recorded answered (heartbeatFrame ++ joinFrame)
    [⟨6, [0, 0, 0, 0, 0, 0, 0, 1]⟩, ⟨1, joinPayload⟩] [⟨1, joinPayload⟩]
  := by
  have hnext : Recorded (serving opened { acked with decoding := .next } []) _ _ _ :=
    acked_recorded.message (by decide +kernel) rfl
  have hposted : Recorded (serving opened posted _) _ _ _ := hnext.message (by decide +kernel) rfl
  rw [show (Peer.handleMessage _ 7 0 Connection.epollIn []).1 = [.frame 7 1 joinPayload] by
      decide +kernel,
    show Peer.nextFrame { acked with decoding := .next } = [⟨1, joinPayload⟩] by
      decide +kernel] at hposted
  have hfinished : Recorded (serving opened finished _) _ _ _ :=
    hposted.message (by decide +kernel) (by decide +kernel)
  rw [show (posted.handleMessage 7 0 Connection.epollIn []).1 = [] by decide +kernel,
    show posted.nextFrame = [] by decide +kernel] at hfinished
  have hsettled : Recorded (serving opened settled _) _ _ _ :=
    hfinished.io (.updateFd true) trivial ⟨by decide +kernel, rfl⟩
  apply hsettled.step (show Server.Step _ (.task takeAll [1] 0) _ from ⟨_, _, rfl, rfl⟩)

theorem answered_requests :
  ∃ watched : Watched, watched.server = answered ∧ watched.handled 7 = [⟨1, joinPayload⟩]
    ∧ watched.KeepsRequests 7 settled
  := by
  obtain ⟨watched, hreachable, hserver, -, -, hhandled⟩ := answered_recorded
  have hpeer : watched.server.peers 7 = some settled := by rw [hserver]; rfl
  exact ⟨watched, hserver, hhandled, requests_of_reachable hreachable hpeer⟩

theorem answered_acks :
  ∃ watched : Watched, watched.server = answered
    ∧ watched.decoded 7 = [⟨6, [0, 0, 0, 0, 0, 0, 0, 1]⟩, ⟨1, joinPayload⟩]
    ∧ watched.AcksHeartbeats 7 settled
  := by
  obtain ⟨watched, hreachable, hserver, -, hdecoded, -⟩ := answered_recorded
  have hpeer : watched.server.peers 7 = some settled := by rw [hserver]; rfl
  have hloop : settled.io.AtLoop := ⟨by decide +kernel, by decide +kernel⟩
  exact ⟨watched, hserver, hdecoded, acks_of_reachable hreachable hpeer hloop⟩

end Watched

end RoomServer
