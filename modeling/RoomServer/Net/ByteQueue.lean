import RoomServer.Lib.Copy
import RoomServer.Lib.Transition
import RoomServer.Net.Buffer

/-!
# The byte buffer is a byte queue

A `RawBuffer` is a buffer as its three fields, with nothing known of the positions.  Its
operations copy element by element and fail where the program would read or write outside of
the vector, copy a range into itself, or where the assertion of `retrieve` does not hold.  On
the fields of a `Buffer` they never fail and do what the operations of `Buffer` do, so a raw
buffer follows the queue of bytes that `append` extends at the end and the other operations
take from the front.
-/

namespace RoomServer

/-- The fields of a buffer. -/
structure RawBuffer where
  buffer : Bytes
  readPos : Nat
  writePos : Nat
  deriving DecidableEq, Repr

namespace RawBuffer

open Copy

def new (initialSize : Nat) : RawBuffer where
  buffer := List.replicate initialSize 0
  readPos := 0
  writePos := 0

def readableBytes (b : RawBuffer) : Nat := b.writePos - b.readPos

def writeableBytes (b : RawBuffer) : Nat := b.buffer.length - b.writePos

def prependableBytes (b : RawBuffer) : Nat := b.readPos

def retrieveAll (b : RawBuffer) : RawBuffer := { b with readPos := 0, writePos := 0 }

def retrieve (b : RawBuffer) (len : Nat) : Option RawBuffer :=
  if len ≤ b.readableBytes then
    if len < b.readableBytes then
      some { b with readPos := b.readPos + len }
    else
      some b.retrieveAll
  else
    none

def retrieveAllAsString (b : RawBuffer) : Option (RawBuffer × Bytes) := do
  let result ← readRange b.buffer b.readableBytes b.readPos
  return (b.retrieveAll, result)

def makeSpace (b : RawBuffer) (len : Nat) : Option RawBuffer :=
  if b.writeableBytes + b.prependableBytes < len then
    some { b with buffer := resize b.buffer (b.writePos + len) }
  else do
    let readable := b.readableBytes
    let buffer ← copyWithin b.buffer (b.writePos - b.readPos) b.readPos 0
    return { buffer := buffer, readPos := 0, writePos := readable }

def ensureWritableBytes (b : RawBuffer) (len : Nat) : Option RawBuffer :=
  if b.writeableBytes ≥ len then some b else b.makeSpace len

def append (b : RawBuffer) (data : Bytes) : Option RawBuffer := do
  let b ← b.ensureWritableBytes data.length
  let buffer ← copyInto b.buffer b.writePos data
  return { b with buffer := buffer, writePos := b.writePos + data.length }

/-- The bytes in the places from `readPos` to `writePos`. -/
def readable (b : RawBuffer) : Bytes := (b.buffer.take b.writePos).drop b.readPos

/-- The positions are ordered and lie in the vector. -/
structure Bounded (b : RawBuffer) : Prop where
  readPos_le : b.readPos ≤ b.writePos
  writePos_le : b.writePos ≤ b.buffer.length

end RawBuffer

/-! ### Raw buffers that are buffers -/

namespace Buffer

/-- The fields of a buffer. -/
def raw (b : Buffer) : RawBuffer where
  buffer := b.buffer
  readPos := b.readPos
  writePos := b.writePos

theorem raw_bounded (b : Buffer) :
  b.raw.Bounded
  := ⟨b.readPos_le, b.writePos_le⟩

@[simp]
theorem readable_raw (b : Buffer) :
  b.raw.readable = b.content
  := rfl

@[simp]
theorem readableBytes_raw (b : Buffer) :
  b.raw.readableBytes = b.readableBytes
  := rfl

/-- `retrieve` passes its assertion exactly when there are enough bytes. -/
theorem raw_retrieve {b : Buffer} {len : Nat} (h : len ≤ b.readableBytes) :
  b.raw.retrieve len = some (b.retrieve len).raw
  := by
  rw [RawBuffer.retrieve, readableBytes_raw, if_pos h, Buffer.retrieve]
  by_cases hlt : len < b.readableBytes
  · rw [dif_pos hlt]
    apply if_pos hlt
  · rw [dif_neg hlt]
    apply if_neg hlt

/-- Reading everything stays inside the vector. -/
theorem raw_retrieveAllAsString (b : Buffer) :
  b.raw.retrieveAllAsString = some (b.retrieveAllAsString.2.raw, b.retrieveAllAsString.1)
  := by
  have hr := b.readPos_le
  have hw := b.writePos_le
  have hread : Copy.readRange b.raw.buffer b.raw.readableBytes b.raw.readPos
      = some (b.peek.take b.readableBytes) := by
    apply Copy.readRange_eq_some
    show b.readPos + (b.writePos - b.readPos) ≤ b.buffer.length
    omega
  rw [RawBuffer.retrieveAllAsString, hread]
  rfl

/-- Where there is too little room, making room moves the readable region inside the vector:
it is moved only when there are consumed bytes, so it does move to the left. -/
theorem raw_makeSpace {b : Buffer} {len : Nat} (h : b.writeableBytes < len) :
  b.raw.makeSpace len = some (b.makeSpace len).raw
  := by
  have hr := b.readPos_le
  have hw := b.writePos_le
  by_cases hgrow : b.writeableBytes + b.prependableBytes < len
  · rw [RawBuffer.makeSpace, Buffer.makeSpace, if_pos hgrow]
    apply if_pos hgrow
  · have hcopy : Copy.copyWithin b.raw.buffer (b.raw.writePos - b.raw.readPos) b.raw.readPos 0
        = some (Copy.overwrite b.buffer 0 b.content) := by
      rw [content, List.drop_take]
      have hconsumed : 0 < b.prependableBytes := by omega
      apply Copy.copyWithin_eq_some hconsumed
      show b.readPos + (b.writePos - b.readPos) ≤ b.buffer.length
      omega
    have hregion : Copy.overwrite b.buffer 0 b.content
        = b.content ++ b.buffer.drop b.content.length := by
      simp only [Copy.overwrite, List.take_zero, List.nil_append, Nat.zero_add]
    rw [RawBuffer.makeSpace, Buffer.makeSpace, if_neg hgrow, hcopy, hregion]
    apply if_neg hgrow

theorem raw_ensureWritableBytes (b : Buffer) (len : Nat) :
  b.raw.ensureWritableBytes len = some (b.ensureWritableBytes len).raw
  := by
  rw [RawBuffer.ensureWritableBytes, Buffer.ensureWritableBytes]
  by_cases henough : b.writeableBytes ≥ len
  · rw [if_pos henough]
    apply if_pos henough
  · rw [if_neg henough, ← raw_makeSpace (Nat.lt_of_not_ge henough)]
    apply if_neg henough

/-- After `ensureWritableBytes` there is room behind the readable region. -/
theorem writePos_add_le (b : Buffer) (len : Nat) :
  (b.ensureWritableBytes len).writePos + len ≤ (b.ensureWritableBytes len).buffer.length
  := by
  have hr := b.readPos_le
  have hw := b.writePos_le
  rw [ensureWritableBytes]
  split
  · next h =>
    rw [writeableBytes] at h
    omega
  · rw [makeSpace]
    split
    · rw [length_resize]
    · next h =>
      rw [writeableBytes, prependableBytes] at h
      simp only [readableBytes, List.length_append, List.length_drop, List.length_take]
      omega

/-- `append` writes inside the vector. -/
theorem raw_append (b : Buffer) (data : Bytes) :
  b.raw.append data = some (b.append data).raw
  := by
  have hcopy := Copy.copyInto_eq_some (b.writePos_add_le data.length)
  rw [RawBuffer.append, raw_ensureWritableBytes, Option.bind_eq_bind, Option.bind_some]
  show (Copy.copyInto (b.ensureWritableBytes data.length).buffer
    (b.ensureWritableBytes data.length).writePos data).bind _ = _
  rw [hcopy]
  rfl

/-- What `retrieveAllAsString` returns is the readable region. -/
theorem retrieveAllAsString_fst (b : Buffer) :
  b.retrieveAllAsString.1 = b.content
  := by
  rw [retrieveAllAsString, take_peek (Nat.le_refl _), ← length_content, List.take_length]

end Buffer

/-! ### The queue -/

/-- A call of a buffer. -/
inductive BufferCall where
  | append (data : Bytes)
  | retrieve (len : Nat)
  | retrieveAll
  | retrieveAllAsString
  deriving DecidableEq, Repr

/-- A buffer as a machine: a call outputs what it returns. -/
def RawBuffer.machine : Machine RawBuffer BufferCall Bytes where
  step b call :=
    match call with
    | .append data => (b.append data).map fun b' => (b', [])
    | .retrieve len => (b.retrieve len).map fun b' => (b', [])
    | .retrieveAll => some (b.retrieveAll, [])
    | .retrieveAllAsString => b.retrieveAllAsString

/-- A queue of bytes: `append` extends it at the end, the other calls take from the front.  A
call may not take more than there is. -/
def byteQueue : Machine Bytes BufferCall Bytes where
  step queue call :=
    match call with
    | .append data => some (queue ++ data, [])
    | .retrieve len => if len ≤ queue.length then some (queue.drop len, []) else none
    | .retrieveAll => some ([], [])
    | .retrieveAllAsString => some ([], queue)

/-- A raw buffer stands for a queue when it is a buffer with the queue as readable region. -/
def RawBuffer.Holds (b : RawBuffer) (queue : Bytes) : Prop :=
  ∃ b₁ : Buffer, b = b₁.raw ∧ b₁.content = queue

namespace RawBuffer

/-- Every call of a buffer does to the readable region what it does to the queue. -/
theorem machine_follows :
  machine.Follows byteQueue Holds
  := by
  rintro _ _ call queue' out ⟨b, rfl, rfl⟩ hstep
  cases call with
  | append data =>
    obtain ⟨rfl, rfl⟩ := Prod.mk.inj (Option.some.inj hstep)
    use (b.append data).raw
    constructor
    · simp only [machine, b.raw_append, Option.map_some]
    · use b.append data, rfl
      apply b.content_append
  | retrieve len =>
    simp only [byteQueue, Buffer.length_content, Option.ite_none_right_eq_some] at hstep
    obtain ⟨hlen, heq⟩ := hstep
    obtain ⟨rfl, rfl⟩ := Prod.mk.inj (Option.some.inj heq)
    use (b.retrieve len).raw
    constructor
    · simp only [machine, Buffer.raw_retrieve hlen, Option.map_some]
    · use b.retrieve len, rfl
      apply b.content_retrieve
  | retrieveAll =>
    obtain ⟨rfl, rfl⟩ := Prod.mk.inj (Option.some.inj hstep)
    use b.retrieveAll.raw, rfl, b.retrieveAll, rfl
    apply b.content_retrieveAll
  | retrieveAllAsString =>
    obtain ⟨rfl, rfl⟩ := Prod.mk.inj (Option.some.inj hstep)
    use b.retrieveAll.raw
    constructor
    · show b.raw.retrieveAllAsString = some (b.retrieveAll.raw, b.content)
      rw [b.raw_retrieveAllAsString, b.retrieveAllAsString_fst]
      rfl
    · use b.retrieveAll, rfl
      apply b.content_retrieveAll

/-- The byte at a place of the readable region. -/
theorem getElem?_readable {b : RawBuffer} {i : Nat} (h : i < b.readableBytes) :
  b.readable[i]? = b.buffer[b.readPos + i]?
  := by
  rw [readableBytes] at h
  rw [readable, List.getElem?_drop, List.getElem?_take_of_lt (by omega)]

/-- `append` leaves every byte that can be read where it is, counted from the read
position. -/
theorem append_keeps {b b' : RawBuffer} {queue data : Bytes} (hb : b.Holds queue)
    (happend : b.append data = some b') {i : Nat} (hi : i < b.readableBytes) :
  b'.buffer[b'.readPos + i]? = b.buffer[b.readPos + i]?
  := by
  obtain ⟨b₁, rfl, rfl⟩ := hb
  obtain rfl : b' = (b₁.append data).raw := by
    rw [b₁.raw_append] at happend
    apply (Option.some.inj happend).symm
  have hi' : i < b₁.content.length := by
    rw [b₁.length_content]
    exact hi
  have hi'' : i < (b₁.append data).raw.readableBytes := by
    show i < (b₁.append data).readableBytes
    rw [← Buffer.length_content, b₁.content_append, List.length_append]
    omega
  rw [← getElem?_readable hi, ← getElem?_readable hi'', Buffer.readable_raw, Buffer.readable_raw,
    b₁.content_append, List.getElem?_append_left hi']

/-- Whatever calls a queue of bytes allows from empty on, a buffer of any initial size
performs them without leaving its vector, with the same results; its positions stay in
bounds, its readable region is the queue, and a further `append` neither leaves the vector
nor changes a byte that can be read. -/
theorem refines_byteQueue
    {initialSize : Nat} {calls : List BufferCall} {queue : Bytes} {outs : List Bytes}
    (hrun : byteQueue.run [] calls = some (queue, outs)) :
  ∃ b, machine.run (new initialSize) calls = some (b, outs) ∧ b.Bounded ∧ b.readable = queue
    ∧ ∀ data, ∃ b', b.append data = some b' ∧ b'.Bounded ∧ b'.readable = queue ++ data
      ∧ ∀ i < b.readableBytes, b'.buffer[b'.readPos + i]? = b.buffer[b.readPos + i]?
  := by
  have hnew : (new initialSize).Holds [] := ⟨Buffer.new initialSize, rfl, Buffer.content_new _⟩
  obtain ⟨b, hb, hholds⟩ := machine_follows.run hnew hrun
  obtain ⟨b₁, rfl, rfl⟩ := hholds
  use b₁.raw, hb, b₁.raw_bounded, rfl
  intro data
  use (b₁.append data).raw, b₁.raw_append data, (b₁.append data).raw_bounded,
    b₁.content_append data
  intro i hi
  apply append_keeps ⟨b₁, rfl, rfl⟩ (b₁.raw_append data) hi

/-- A buffer of four bytes that has to grow with one byte consumed. -/
theorem refines_byteQueue_grown :
  byteQueue.run [] [.append [97, 98, 99], .retrieve 1, .append [100, 101, 102, 103, 104, 105]]
      = some ([98, 99, 100, 101, 102, 103, 104, 105], [[], [], []])
    ∧ ∃ b, machine.run (new 4)
        [.append [97, 98, 99], .retrieve 1, .append [100, 101, 102, 103, 104, 105]]
      = some (b, [[], [], []]) ∧ b.readable = [98, 99, 100, 101, 102, 103, 104, 105]
  := by
  have hrun : byteQueue.run []
      [.append [97, 98, 99], .retrieve 1, .append [100, 101, 102, 103, 104, 105]]
      = some ([98, 99, 100, 101, 102, 103, 104, 105], [[], [], []]) := by
    decide
  constructor
  · exact hrun
  · have ⟨b, hb, _, hreadable, _⟩ := @refines_byteQueue 4 _ _ _ hrun
    exact ⟨b, hb, hreadable⟩

end RawBuffer

end RoomServer
