import RoomServer.Lib.Format
import RoomServer.Net.Buffer

/-!
# The frame codec

A frame is a 32-bit length, a 16-bit type and a payload; the length counts the type and the
payload.  `encode` writes a frame, `decode` takes whole frames off a buffer and hands them to
a callback until the buffer holds no whole frame, a length is bad, or the callback refuses.

`readFrames` is the reference reading of a byte stream as frames, which knows neither
buffers nor callbacks.  `decode` refines it, and so does any sequence of `decode`s between
which the stream is appended to the buffer piece by piece.
-/

namespace RoomServer

structure Frame where
  type : UInt16
  payload : Bytes
  deriving DecidableEq, Repr

namespace Codec

abbrev lengthFieldSize : Nat := 4
abbrev typeFieldSize : Nat := 2
abbrev minFrameLength : Nat := 2
abbrev maxFrameLength : Nat := 64 * 1024

/-- Write a frame; `none` when the payload is too long. -/
def encode (type : UInt16) (payload : Bytes) : Option Bytes :=
  if payload.length > maxFrameLength - typeFieldSize then
    none
  else
    some (BigEndian.digits 4 (typeFieldSize + payload.length)
      ++ BigEndian.digits 2 type.toNat ++ payload)

/-- A callback for frames with a state of its own; it answers whether to go on. -/
abbrev FrameCallback (σ : Type) : Type := σ → UInt16 → Bytes → Bool × σ

/-- What one turn of the loop of `decode` finds in the buffer. -/
inductive Next where
  | incomplete
  | badLength
  | frame (type : UInt16) (payload : Bytes) (rest : Buffer)

/-- One turn of the loop of `decode`, up to the call of the callback. -/
def next (buffer : Buffer) : Next :=
  if buffer.readableBytes < lengthFieldSize then
    .incomplete
  else
    let frameLen := BigEndian.value (buffer.peek.take 4)
    if frameLen < minFrameLength ∨ frameLen > maxFrameLength then
      .badLength
    else if buffer.readableBytes < frameLen + lengthFieldSize then
      .incomplete
    else
      .frame
        (UInt16.ofNat (BigEndian.value ((buffer.peek.drop lengthFieldSize).take 2)))
        ((buffer.peek.drop (lengthFieldSize + typeFieldSize)).take (frameLen - typeFieldSize))
        (buffer.retrieve (frameLen + lengthFieldSize))

/-- Consuming a frame shortens the readable region. -/
theorem readableBytes_lt_of_next {buffer rest : Buffer} {type : UInt16} {payload : Bytes}
    (h : next buffer = .frame type payload rest) :
  rest.readableBytes < buffer.readableBytes
  := by
  rw [next] at h
  split at h
  · cases h
  · next hlen =>
    dsimp only at h
    split at h
    · cases h
    · split at h
      · cases h
      · cases h
        rw [← Buffer.length_content, Buffer.content_retrieve, List.length_drop,
          Buffer.length_content]
        simp only [lengthFieldSize] at hlen ⊢
        omega

/-- The loop of `decode`. -/
def decodeLoop {σ : Type} (callback : FrameCallback σ) (s : σ) (buffer : Buffer) :
    Bool × σ × Buffer :=
  match _h : next buffer with
  | .incomplete => (true, s, buffer)
  | .badLength => (false, s, buffer)
  | .frame type payload rest =>
    match callback s type payload with
    | (false, s') => (false, s', rest)
    | (true, s') => decodeLoop callback s' rest
  termination_by buffer.readableBytes
  decreasing_by exact readableBytes_lt_of_next _h

/-- Take whole frames off the buffer and hand them to the callback. -/
def decode {σ : Type} (callback : Option (FrameCallback σ)) (s : σ) (buffer : Buffer) :
    Bool × σ × Buffer :=
  match callback with
  | none => (false, s, buffer)
  | some callback => decodeLoop callback s buffer

/-! ### The reference reading -/

/-- A byte stream read as frames: the frames, whether what follows them is the beginning of
a frame rather than a bad length, and what follows them. -/
structure Reading where
  frames : List Frame
  good : Bool
  rest : Bytes

/-- The frame at the front of the stream, if it is all there. -/
def frontFrame (stream : Bytes) (length : Nat) : Frame where
  type := UInt16.ofNat (BigEndian.value ((stream.drop 4).take 2))
  payload := (stream.drop 6).take (length - 2)

/-- Read a byte stream as frames `u32 length, u16 type, length - 2 bytes of payload` with
lengths from 2 to 65536. -/
def readFrames (stream : Bytes) : Reading :=
  let length := BigEndian.value (stream.take 4)
  if stream.length < 4 then
    ⟨[], true, stream⟩
  else if length < 2 ∨ 65536 < length then
    ⟨[], false, stream⟩
  else if stream.length < 4 + length then
    ⟨[], true, stream⟩
  else
    let reading := readFrames (stream.drop (4 + length))
    { reading with frames := frontFrame stream length :: reading.frames }
  termination_by stream.length
  decreasing_by
    rw [List.length_drop]
    omega

/-- Hand the frames to the callback up to the first one it refuses. -/
def offer {σ : Type} (callback : FrameCallback σ) (s : σ) : List Frame → Bool × σ
  | [] => (true, s)
  | f :: fs =>
    match callback s f.type f.payload with
    | (false, s') => (false, s')
    | (true, s') => offer callback s' fs

/-! ### `decode` refines the reference reading -/

theorem take_drop_peek {b : Buffer} {k n : Nat} (h : k + n ≤ b.readableBytes) :
  (b.peek.drop k).take n = (b.content.drop k).take n
  := by
  rw [List.take_drop, List.take_drop, Buffer.take_peek h]

/-- One turn of the loop of `decode` is one turn of the reference reading. -/
theorem readFrames_content (b : Buffer) :
  readFrames b.content = match next b with
    | .incomplete => ⟨[], true, b.content⟩
    | .badLength => ⟨[], false, b.content⟩
    | .frame type payload rest =>
      { readFrames rest.content with
        frames := ⟨type, payload⟩ :: (readFrames rest.content).frames }
  := by
  rw [readFrames, next]
  simp only [Buffer.length_content, lengthFieldSize, typeFieldSize, minFrameLength,
    maxFrameLength]
  by_cases hlen : b.readableBytes < 4
  · rw [if_pos hlen, if_pos hlen]
  rw [if_neg hlen, if_neg hlen, Buffer.take_peek (by omega)]
  generalize BigEndian.value (b.content.take 4) = length
  by_cases hbad : length < 2 ∨ 65536 < length
  · have hbad' : length < 2 ∨ length > 64 * 1024 := by omega
    rw [if_pos hbad, if_pos hbad']
  have hbad' : ¬(length < 2 ∨ length > 64 * 1024) := by omega
  rw [if_neg hbad, if_neg hbad', Nat.add_comm length 4]
  by_cases hall : b.readableBytes < 4 + length
  · rw [if_pos hall, if_pos hall]
  rw [if_neg hall, if_neg hall]
  simp only [Buffer.content_retrieve, frontFrame]
  rw [take_drop_peek (by omega), take_drop_peek (by omega)]

/-- `decode` hands the frames of the reference reading to the callback up to the first one it
refuses, and leaves what the reading leaves. -/
theorem decodeLoop_spec {σ : Type} (callback : FrameCallback σ) (s : σ) (b : Buffer) :
  (decodeLoop callback s b).1
      = ((offer callback s (readFrames b.content).frames).1 && (readFrames b.content).good)
    ∧ (decodeLoop callback s b).2.1 = (offer callback s (readFrames b.content).frames).2
    ∧ ((decodeLoop callback s b).1 = true →
        (decodeLoop callback s b).2.2.content = (readFrames b.content).rest)
  := by
  induction s, b using decodeLoop.induct callback with
  | case1 s b hnext =>
    rw [decodeLoop, readFrames_content, hnext]
    simp [offer]
  | case2 s b hnext =>
    rw [decodeLoop, readFrames_content, hnext]
    simp [offer]
  | case3 s b type payload rest hnext s' hcall =>
    rw [decodeLoop, readFrames_content, hnext]
    simp [offer, hcall]
  | case4 s b type payload rest hnext s' hcall ih =>
    rw [decodeLoop, readFrames_content, hnext]
    simpa [offer, hcall] using ih

/-! ### Streams of frames -/

/-- The bytes of a frame. -/
def frameBytes (f : Frame) : Bytes :=
  BigEndian.digits 4 (2 + f.payload.length) ++ BigEndian.digits 2 f.type.toNat ++ f.payload

/-- The frame is short enough to be sent. -/
def Fits (f : Frame) : Prop := f.payload.length ≤ 65534

instance (f : Frame) : Decidable (Fits f) := inferInstanceAs (Decidable (_ ≤ _))

theorem encode_eq_some_iff {type : UInt16} {payload bytes : Bytes} :
  encode type payload = some bytes ↔ Fits ⟨type, payload⟩ ∧ bytes = frameBytes ⟨type, payload⟩
  := by
  simp only [encode, Fits, frameBytes, maxFrameLength, typeFieldSize]
  split
  · next h =>
    simp only [reduceCtorEq, false_iff, not_and]
    intro
    omega
  · next h =>
    rw [Option.some.injEq, eq_comm (a := bytes)]
    constructor
    · intro heq
      use by omega
    · rintro ⟨-, heq⟩
      apply heq

/-- The stream is the beginning of a frame. -/
def Incomplete (stream : Bytes) : Prop :=
  stream.length < 4
    ∨ 2 ≤ BigEndian.value (stream.take 4) ∧ BigEndian.value (stream.take 4) ≤ 65536
      ∧ stream.length < 4 + BigEndian.value (stream.take 4)

/-- The stream begins with a length no frame has. -/
def BadLength (stream : Bytes) : Prop :=
  4 ≤ stream.length
    ∧ (BigEndian.value (stream.take 4) < 2 ∨ 65536 < BigEndian.value (stream.take 4))

theorem readFrames_of_incomplete {stream : Bytes} (h : Incomplete stream) :
  readFrames stream = ⟨[], true, stream⟩
  := by
  rw [readFrames]
  obtain h | ⟨hmin, hmax, hlen⟩ := h
  · rw [if_pos h]
  · by_cases h4 : stream.length < 4
    · rw [if_pos h4]
    · rw [if_neg h4, if_neg (show ¬(_ ∨ _) by omega), if_pos hlen]

theorem readFrames_of_badLength {stream : Bytes} (h : BadLength stream) :
  readFrames stream = ⟨[], false, stream⟩
  := by
  rw [readFrames, if_neg (by have := h.1; omega), if_pos h.2]

theorem BadLength.append {bs : Bytes} (h : BadLength bs) (cs : Bytes) :
  BadLength (bs ++ cs)
  := by
  constructor
  · rw [List.length_append]
    have := h.1
    omega
  · rw [List.take_append_of_le_length h.1]
    apply h.2

theorem length_frameBytes (f : Frame) :
  (frameBytes f).length = 6 + f.payload.length
  := by
  simp only [frameBytes, List.length_append, BigEndian.length_digits]

/-- The length field of a frame. -/
theorem value_take_frameBytes {f : Frame} (hf : Fits f) (rest : Bytes) :
  BigEndian.value ((frameBytes f ++ rest).take 4) = 2 + f.payload.length
  := by
  rw [Fits] at hf
  rw [frameBytes, List.append_assoc, List.append_assoc, List.take_left' (by simp),
    BigEndian.value_digits_of_lt (by omega)]

/-- A proper prefix of a frame is the beginning of one. -/
theorem incomplete_of_part {f : Frame} (hf : Fits f) {stream : Bytes}
    (h : stream <+: frameBytes f) (hlen : stream.length < (frameBytes f).length) :
  Incomplete stream
  := by
  by_cases h4 : stream.length < 4
  · exact .inl h4
  · have hvalue : BigEndian.value (stream.take 4) = 2 + f.payload.length := by
      obtain ⟨rest, hrest⟩ := h
      have := value_take_frameBytes hf []
      rwa [List.append_nil, ← hrest, List.take_append_of_le_length (Nat.not_lt.mp h4)] at this
    rw [length_frameBytes] at hlen
    rw [Fits] at hf
    right
    omega

/-- A frame at the front of a stream is read as itself. -/
theorem readFrames_frame {f : Frame} (hf : Fits f) (rest : Bytes) :
  readFrames (frameBytes f ++ rest)
    = { readFrames rest with frames := f :: (readFrames rest).frames }
  := by
  have hvalue := value_take_frameBytes hf rest
  have hlen := length_frameBytes f
  have hdrop : (frameBytes f ++ rest).drop (4 + (2 + f.payload.length)) = rest :=
    List.drop_left' (by omega)
  have hfront : frontFrame (frameBytes f ++ rest) (2 + f.payload.length) = f := by
    have htype : ((frameBytes f ++ rest).drop 4).take 2 = BigEndian.digits 2 f.type.toNat := by
      rw [frameBytes, List.append_assoc, List.append_assoc, List.drop_left' (by simp),
        List.take_left' (by simp)]
    have hpayload : ((frameBytes f ++ rest).drop 6).take f.payload.length = f.payload := by
      rw [frameBytes, List.append_assoc, List.drop_left' (by simp), List.take_left]
    rw [frontFrame, htype, Nat.add_sub_cancel_left, hpayload,
      BigEndian.value_digits_of_lt f.type.toNat_lt, UInt16.ofNat_toNat]
  rw [Fits] at hf
  rw [readFrames, hvalue, if_neg (by rw [List.length_append]; omega), if_neg (by omega),
    if_neg (by rw [List.length_append]; omega), hdrop, hfront]

/-- A stream is the beginning of a frame, begins with a bad length, or begins with a frame. -/
theorem stream_cases (stream : Bytes) :
  Incomplete stream ∨ BadLength stream ∨ ∃ f rest, Fits f ∧ stream = frameBytes f ++ rest
  := by
  by_cases hlen : stream.length < 4
  · exact .inl (.inl hlen)
  by_cases hbad : BigEndian.value (stream.take 4) < 2 ∨ 65536 < BigEndian.value (stream.take 4)
  · exact .inr (.inl ⟨by omega, hbad⟩)
  by_cases hall : stream.length < 4 + BigEndian.value (stream.take 4)
  · exact .inl (.inr (by omega))
  right
  right
  generalize hn : BigEndian.value (stream.take 4) = length at hbad hall
  use frontFrame stream length, stream.drop (4 + length)
  have hpayload : ((stream.drop 6).take (length - 2)).length = length - 2 := by
    rw [List.length_take, List.length_drop]
    omega
  constructor
  · rw [Fits, frontFrame, hpayload]
    omega
  · have h4 : BigEndian.digits 4 length = stream.take 4 := by
      have := BigEndian.digits_value (stream.take 4)
      rw [hn, List.length_take, Nat.min_eq_left (by omega)] at this
      apply this
    have h2 : BigEndian.digits 2 (BigEndian.value ((stream.drop 4).take 2))
        = (stream.drop 4).take 2 := by
      have := BigEndian.digits_value ((stream.drop 4).take 2)
      rw [List.length_take, List.length_drop, Nat.min_eq_left (by omega)] at this
      apply this
    have hlt : BigEndian.value ((stream.drop 4).take 2) < 2 ^ 16 :=
      calc BigEndian.value ((stream.drop 4).take 2)
          < 256 ^ ((stream.drop 4).take 2).length := BigEndian.value_lt _
        _ ≤ 256 ^ 2 := by
          apply Nat.pow_le_pow_right (by omega)
          rw [List.length_take]
          omega
        _ = 2 ^ 16 := rfl
    rw [frameBytes, frontFrame, hpayload, UInt16.toNat_ofNat', Nat.mod_eq_of_lt hlt, h2,
      Nat.add_sub_cancel' (by omega), h4, List.append_assoc, List.append_assoc]
    rw [show stream.drop 6 = (stream.drop 4).drop 2 by rw [List.drop_drop],
      show stream.drop (4 + length) = ((stream.drop 4).drop 2).drop (length - 2) by
        rw [List.drop_drop, List.drop_drop]; congr 1; omega,
      List.take_append_drop, List.take_append_drop, List.take_append_drop]

/-- Streams are read frame by frame. -/
theorem stream_induction {motive : Bytes → Prop}
    (incomplete : ∀ stream, Incomplete stream → motive stream)
    (badLength : ∀ stream, BadLength stream → motive stream)
    (frame : ∀ f rest, Fits f → motive rest → motive (frameBytes f ++ rest)) (stream : Bytes) :
  motive stream
  := by
  induction hn : stream.length using Nat.strong_induction_on generalizing stream with
  | _ n ih =>
    obtain h | h | ⟨f, rest, hf, rfl⟩ := stream_cases stream
    · apply incomplete _ h
    · apply badLength _ h
    · apply frame f rest hf
      apply ih rest.length _ rest rfl
      rw [← hn, List.length_append, length_frameBytes]
      omega

/-- The frames read are those the stream begins with. -/
theorem eq_flatMap_readFrames (stream : Bytes) :
  stream = (readFrames stream).frames.flatMap frameBytes ++ (readFrames stream).rest
  := by
  induction stream using stream_induction with
  | incomplete stream h => rw [readFrames_of_incomplete h]; rfl
  | badLength stream h => rw [readFrames_of_badLength h]; rfl
  | frame f rest hf ih =>
    rw [readFrames_frame hf]
    simp only [List.flatMap_cons, List.append_assoc]
    rw [← ih]

/-- What a good reading leaves is the beginning of a frame. -/
theorem incomplete_rest {stream : Bytes} (h : (readFrames stream).good = true) :
  Incomplete (readFrames stream).rest
  := by
  induction stream using stream_induction with
  | incomplete stream hs => rwa [readFrames_of_incomplete hs]
  | badLength stream hs => simp [readFrames_of_badLength hs] at h
  | frame f rest hf ih =>
    rw [readFrames_frame hf] at h ⊢
    apply ih h

/-- A sequence of frames is read as these frames and nothing is left. -/
theorem readFrames_flatMap {fs : List Frame} (h : ∀ f ∈ fs, Fits f) :
  readFrames (fs.flatMap frameBytes) = ⟨fs, true, []⟩
  := by
  induction fs with
  | nil => apply readFrames_of_incomplete (.inl (by simp))
  | cons f fs ih =>
    rw [List.flatMap_cons, readFrames_frame (h f List.mem_cons_self),
      ih fun g hg => h g (List.mem_cons_of_mem f hg)]

/-- The frames of a stream that was cut are the first of them, and what is left is the
beginning of the next one. -/
theorem readFrames_of_prefix {frames : List Frame} (hfits : ∀ f ∈ frames, Fits f)
    {stream : Bytes} (h : stream <+: frames.flatMap frameBytes) :
  ∃ k, (readFrames stream).frames = frames.take k ∧ (readFrames stream).good = true
    ∧ ((readFrames stream).rest = []
      ∨ ∃ f, frames[k]? = some f ∧ (readFrames stream).rest <+: frameBytes f
        ∧ (readFrames stream).rest ≠ frameBytes f)
  := by
  induction frames generalizing stream with
  | nil =>
    rw [List.flatMap_nil, List.prefix_nil] at h
    rw [h, readFrames_of_incomplete (.inl (by simp))]
    exact ⟨0, rfl, rfl, .inl rfl⟩
  | cons f frames ih =>
    rw [List.flatMap_cons] at h
    by_cases hlen : stream.length < (frameBytes f).length
    · have hprefix : stream <+: frameBytes f :=
        List.prefix_of_prefix_length_le h (List.prefix_append _ _) (Nat.le_of_lt hlen)
      rw [readFrames_of_incomplete (incomplete_of_part (hfits f List.mem_cons_self)
        hprefix hlen)]
      refine ⟨0, rfl, rfl, .inr ⟨f, rfl, hprefix, ?_⟩⟩
      intro (heq : stream = frameBytes f)
      rw [heq] at hlen
      apply Nat.lt_irrefl _ hlen
    · have hfront : frameBytes f <+: stream :=
        List.prefix_of_prefix_length_le (List.prefix_append _ _) h (Nat.not_lt.mp hlen)
      obtain ⟨rest, rfl⟩ := hfront
      rw [List.prefix_append_right_inj] at h
      obtain ⟨k, hframes, hgood, hrest⟩ := ih (fun g hg => hfits g (List.mem_cons_of_mem f hg)) h
      rw [readFrames_frame (hfits f List.mem_cons_self)]
      refine ⟨k + 1, ?_, hgood, hrest⟩
      rw [List.take_succ_cons, ← hframes]

/-! ### Streams that arrive in pieces -/

/-- A stream that continues behind a good reading is read on from what the reading left. -/
theorem readFrames_append (bs cs : Bytes) (h : (readFrames bs).good = true) :
  readFrames (bs ++ cs)
    = { readFrames ((readFrames bs).rest ++ cs) with
        frames := (readFrames bs).frames ++ (readFrames ((readFrames bs).rest ++ cs)).frames }
  := by
  induction bs using stream_induction with
  | incomplete bs hbs => rw [readFrames_of_incomplete hbs]; rfl
  | badLength bs hbs => simp [readFrames_of_badLength hbs] at h
  | frame f bs hf ih =>
    rw [readFrames_frame hf] at h ⊢
    rw [List.append_assoc, readFrames_frame hf, ih h]
    rfl

/-- A stream that continues behind a bad length has no further frames. -/
theorem readFrames_append_of_bad (bs cs : Bytes) (h : (readFrames bs).good = false) :
  (readFrames (bs ++ cs)).frames = (readFrames bs).frames
    ∧ (readFrames (bs ++ cs)).good = false
  := by
  induction bs using stream_induction with
  | incomplete bs hbs => simp [readFrames_of_incomplete hbs] at h
  | badLength bs hbs =>
    rw [readFrames_of_badLength hbs, readFrames_of_badLength (hbs.append cs)]
    use rfl
  | frame f bs hf ih =>
    rw [readFrames_frame hf] at h ⊢
    rw [List.append_assoc, readFrames_frame hf]
    obtain ⟨hframes, hgood⟩ := ih h
    rw [hframes, hgood]
    use rfl

/-- Append the pieces to the buffer one after the other, with a `decode` after each, up to
the first one that answers `false`. -/
def feed {σ : Type} (callback : FrameCallback σ) : List Bytes → σ → Buffer → Bool × σ × Buffer
  | [], s, buffer => (true, s, buffer)
  | piece :: pieces, s, buffer =>
    match decode (some callback) s (buffer.append piece) with
    | (false, s', buffer') => (false, s', buffer')
    | (true, s', buffer') => feed callback pieces s' buffer'

theorem offer_append {σ : Type} (callback : FrameCallback σ) (s : σ) (fs gs : List Frame) :
  offer callback s (fs ++ gs)
    = if (offer callback s fs).1 then offer callback (offer callback s fs).2 gs
      else offer callback s fs
  := by
  induction fs generalizing s with
  | nil => rfl
  | cons f fs ih =>
    rw [List.cons_append, offer, offer]
    split
    · rfl
    · apply ih

/-- A stream that arrives in pieces is decoded as if it came at once: the callback is handed
the same frames, the verdict is the same, and so is what a good reading leaves. -/
theorem feed_spec {σ : Type} (callback : FrameCallback σ) (pieces : List Bytes) (s : σ)
    (b : Buffer) (hb : Incomplete b.content) :
  (feed callback pieces s b).1
      = ((offer callback s (readFrames (b.content ++ pieces.flatten)).frames).1
        && (readFrames (b.content ++ pieces.flatten)).good)
    ∧ (feed callback pieces s b).2.1
      = (offer callback s (readFrames (b.content ++ pieces.flatten)).frames).2
    ∧ ((feed callback pieces s b).1 = true →
        (feed callback pieces s b).2.2.content
          = (readFrames (b.content ++ pieces.flatten)).rest)
  := by
  induction pieces generalizing s b with
  | nil =>
    rw [List.flatten_nil, List.append_nil, readFrames_of_incomplete hb]
    simp [feed, offer]
  | cons piece pieces ih =>
    have hdecode := decodeLoop_spec callback s (b.append piece)
    rw [Buffer.content_append] at hdecode
    rw [List.flatten_cons, ← List.append_assoc]
    rcases hres : decodeLoop callback s (b.append piece) with ⟨verdict, s', b'⟩
    rw [hres] at hdecode
    obtain ⟨hverdict, hs', hrest⟩ := hdecode
    dsimp only at hverdict hs' hrest
    rw [feed, decode, hres]
    cases verdict with
    | true =>
      have hand := Bool.and_eq_true_iff.mp hverdict.symm
      have hb' := hrest rfl
      rw [readFrames_append _ _ hand.2, offer_append, if_pos hand.1, ← hs', ← hb']
      apply ih s' b'
      rw [hb']
      apply incomplete_rest hand.2
    | false =>
      -- The verdict is final: either the stream read so far ends in a bad length, or the
      -- callback has refused one of its frames.
      cases hgood : (readFrames (b.content ++ piece)).good with
      | false =>
        obtain ⟨hframes, hbad⟩ := readFrames_append_of_bad _ pieces.flatten hgood
        rw [hframes, hbad, hs', Bool.and_false]
        simp
      | true =>
        rw [hgood, Bool.and_true] at hverdict
        rw [readFrames_append _ _ hgood, offer_append, ← hverdict, hs']
        simp [← hverdict]

/-- The callback that records the frames it is handed, and answers by `answer` of all the
frames handed to it so far. -/
def recorder (answer : List Frame → Bool) : FrameCallback (List Frame) :=
  fun seen type payload => (answer (seen ++ [⟨type, payload⟩]), seen ++ [⟨type, payload⟩])

/-- The frames of the list up to and including the first one `answer` refuses, and whether
none is refused; `seen` are the frames before the list. -/
def cut (answer : List Frame → Bool) (seen : List Frame) : List Frame → List Frame × Bool
  | [] => ([], true)
  | f :: fs =>
    if answer (seen ++ [f]) then
      (f :: (cut answer (seen ++ [f]) fs).1, (cut answer (seen ++ [f]) fs).2)
    else
      ([f], false)

theorem offer_recorder (answer : List Frame → Bool) (seen fs : List Frame) :
  offer (recorder answer) seen fs = ((cut answer seen fs).2, seen ++ (cut answer seen fs).1)
  := by
  induction fs generalizing seen with
  | nil => simp [offer, cut]
  | cons f fs ih =>
    rw [offer, recorder, cut]
    cases h : answer (seen ++ [f]) with
    | true =>
      rw [if_pos rfl]
      dsimp only
      rw [ih]
      simp
    | false => simp

/-- The concatenated encodings of a list of frames; `none` when one of them is refused. -/
def encodeAll : List Frame → Option Bytes
  | [] => some []
  | f :: fs => do
    let bytes ← encode f.type f.payload
    let rest ← encodeAll fs
    return bytes ++ rest

theorem encodeAll_of_fits {fs : List Frame} (h : ∀ f ∈ fs, Fits f) :
  encodeAll fs = some (fs.flatMap frameBytes)
  := by
  induction fs with
  | nil => rfl
  | cons f fs ih =>
    have hf : encode f.type f.payload = some (frameBytes f) :=
      encode_eq_some_iff.mpr ⟨h f List.mem_cons_self, rfl⟩
    rw [encodeAll, hf, ih fun g hg => h g (List.mem_cons_of_mem f hg)]
    rfl

theorem cut_true (seen fs : List Frame) :
  cut (fun _ => true) seen fs = (fs, true)
  := by
  induction fs generalizing seen with
  | nil => rfl
  | cons f fs ih => rw [cut, if_pos rfl, ih]

/-- Framing does not depend on how the stream is cut into pieces: feeding a buffer piece by
piece hands the callback the same frames, gives the same verdict and, when the verdict is
good, leaves the same bytes as one `decode` of the whole stream, and all three are those of
the reference reading cut at the first refused frame.  In particular the encodings of a list
of frames come back as that list, in whatever pieces they arrive. -/
theorem framing_independent_of_segmentation (answer : List Frame → Bool) (initialSize : Nat)
    (pieces : List Bytes) :
  let fed := feed (recorder answer) pieces [] (Buffer.new initialSize)
  let whole := decode (some (recorder answer)) []
    ((Buffer.new initialSize).append pieces.flatten)
  let reading := readFrames pieces.flatten
  (fed.2.1 = whole.2.1 ∧ fed.1 = whole.1 ∧
      (fed.1 = true → fed.2.2.content = whole.2.2.content))
    ∧ (fed.2.1 = (cut answer [] reading.frames).1 ∧
      fed.1 = ((cut answer [] reading.frames).2 && reading.good) ∧
      (fed.1 = true → fed.2.2.content = reading.rest))
    ∧ ∀ fs : List Frame, (∀ f ∈ fs, f.payload.length ≤ 65534) →
      (encodeAll fs).isSome ∧ (encodeAll fs = some pieces.flatten →
      (feed (recorder fun _ => true) pieces [] (Buffer.new initialSize)).1 = true ∧
        (feed (recorder fun _ => true) pieces [] (Buffer.new initialSize)).2.1 = fs ∧
        (feed (recorder fun _ => true) pieces [] (Buffer.new initialSize)).2.2.content = [])
  := by
  have hempty : Incomplete (Buffer.new initialSize).content := .inl (by simp)
  have hfeed : ∀ answer, _ := fun answer =>
    feed_spec (recorder answer) pieces [] (Buffer.new initialSize) hempty
  have hwhole := decodeLoop_spec (recorder answer) []
    ((Buffer.new initialSize).append pieces.flatten)
  simp only [Buffer.content_append, Buffer.content_new, List.nil_append, offer_recorder]
    at hfeed hwhole
  obtain ⟨hverdict, hseen, hrest⟩ := hfeed answer
  obtain ⟨hverdict', hseen', hrest'⟩ := hwhole
  dsimp only [decode]
  refine ⟨⟨?_, ?_, ?_⟩, ⟨hseen, hverdict, hrest⟩, ?_⟩
  · rw [hseen, hseen']
  · rw [hverdict, hverdict']
  · intro h
    rw [hrest h, hrest']
    rw [hverdict', ← hverdict, h]
  · intro fs hfits
    rw [encodeAll_of_fits hfits]
    use rfl
    intro hstream
    rw [Option.some.injEq] at hstream
    obtain ⟨hverdict, hseen, hrest⟩ := hfeed fun _ => true
    rw [← hstream, readFrames_flatMap hfits] at hrest
    rw [← hstream, readFrames_flatMap hfits, cut_true] at hverdict hseen
    use hverdict, hseen, hrest hverdict

end Codec

end RoomServer
