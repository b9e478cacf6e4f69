import RoomServer.Lib.BigEndian
import Mathlib.Data.List.Basic

/-!
# The byte buffer

A `Buffer` is a vector of bytes with two positions: the bytes before `readPos` are consumed,
those from `readPos` to `writePos` can be read, those from `writePos` on can be written.  The
bounds of the positions are part of the structure.  `content` is the readable region; a
buffer is a queue of bytes through it: `append` adds at its end and `retrieve` drops from its
front, whichever way `append` finds its space.
-/

namespace RoomServer

/-- `vector::resize`: the first `n` elements, padded with zeros. -/
def resize (v : Bytes) (n : Nat) : Bytes := v.take n ++ List.replicate (n - v.length) 0

theorem length_resize (v : Bytes) (n : Nat) :
  (resize v n).length = n
  := by
  simp only [resize, List.length_append, List.length_take, List.length_replicate]
  omega

structure Buffer where
  buffer : Bytes
  readPos : Nat
  writePos : Nat
  readPos_le : readPos ≤ writePos
  writePos_le : writePos ≤ buffer.length
  deriving DecidableEq, Repr

namespace Buffer

/-- A buffer of `initialSize` bytes with nothing in it. -/
def new (initialSize : Nat) : Buffer where
  buffer := List.replicate initialSize 0
  readPos := 0
  writePos := 0
  readPos_le := Nat.le_refl 0
  writePos_le := Nat.zero_le _

def readableBytes (b : Buffer) : Nat := b.writePos - b.readPos

def writeableBytes (b : Buffer) : Nat := b.buffer.length - b.writePos

def prependableBytes (b : Buffer) : Nat := b.readPos

def empty (b : Buffer) : Bool := b.readPos == b.writePos

/-- The vector from the start of the readable region on. -/
def peek (b : Buffer) : Bytes := b.buffer.drop b.readPos

/-- Consume everything. -/
def retrieveAll (b : Buffer) : Buffer :=
  { b with
    readPos := 0
    writePos := 0
    readPos_le := Nat.le_refl 0
    writePos_le := Nat.zero_le _ }

/-- Consume everything and return it. -/
def retrieveAllAsString (b : Buffer) : Bytes × Buffer :=
  (b.peek.take b.readableBytes, b.retrieveAll)

/-- Consume `len` bytes. -/
def retrieve (b : Buffer) (len : Nat) : Buffer :=
  if h : len < b.readableBytes then
    { b with
      readPos := b.readPos + len
      readPos_le := by
        rw [readableBytes] at h
        omega }
  else
    b.retrieveAll

/-- Make room for `len` bytes: by growing the vector when the consumed and the writeable
bytes together do not suffice, by moving the readable region to the front otherwise. -/
def makeSpace (b : Buffer) (len : Nat) : Buffer :=
  if b.writeableBytes + b.prependableBytes < len then
    { b with
      buffer := resize b.buffer (b.writePos + len)
      writePos_le := by
        rw [length_resize]
        omega }
  else
    let region := (b.buffer.take b.writePos).drop b.readPos
    { buffer := region ++ b.buffer.drop region.length
      readPos := 0
      writePos := b.readableBytes
      readPos_le := Nat.zero_le _
      writePos_le := by
        have := b.writePos_le
        simp only [region, readableBytes, List.length_append, List.length_drop, List.length_take]
        omega }

def ensureWritableBytes (b : Buffer) (len : Nat) : Buffer :=
  if b.writeableBytes ≥ len then b else b.makeSpace len

/-- Write `data` behind the readable region. -/
def append (b : Buffer) (data : Bytes) : Buffer :=
  let b' := b.ensureWritableBytes data.length
  { b' with
    buffer := b'.buffer.take b'.writePos ++ data ++ b'.buffer.drop (b'.writePos + data.length)
    writePos := b'.writePos + data.length
    readPos_le := Nat.le_add_right_of_le b'.readPos_le
    writePos_le := by
      have := b'.writePos_le
      simp only [List.length_append, List.length_take]
      omega }

/-! ### The readable region -/

/-- The readable region. -/
def content (b : Buffer) : Bytes := (b.buffer.take b.writePos).drop b.readPos

@[simp]
theorem length_content (b : Buffer) :
  b.content.length = b.readableBytes
  := by
  have := b.writePos_le
  simp only [content, readableBytes, List.length_drop, List.length_take]
  omega

/-- What is read behind `peek` within the readable region is the readable region. -/
theorem take_peek {b : Buffer} {n : Nat} (h : n ≤ b.readableBytes) :
  b.peek.take n = b.content.take n
  := by
  have hr := b.readPos_le
  rw [readableBytes] at h
  rw [peek, content, List.take_drop, List.take_drop, List.take_take, Nat.min_eq_left (by omega)]

@[simp]
theorem content_new (initialSize : Nat) :
  (new initialSize).content = []
  := by
  simp [new, content]

@[simp]
theorem content_retrieveAll (b : Buffer) :
  b.retrieveAll.content = []
  := by
  simp [retrieveAll, content]

/-- `retrieve` drops from the front of the readable region. -/
@[simp]
theorem content_retrieve (b : Buffer) (len : Nat) :
  (b.retrieve len).content = b.content.drop len
  := by
  rw [retrieve]
  split
  · simp only [content, List.drop_drop]
  · next h =>
    rw [content_retrieveAll]
    symm
    apply List.drop_eq_nil_of_le
    rw [length_content]
    omega

/-- Making room does not change the readable region. -/
theorem content_makeSpace (b : Buffer) (len : Nat) :
  (b.makeSpace len).content = b.content
  := by
  have hr := b.readPos_le
  have hw := b.writePos_le
  rw [makeSpace]
  split
  · simp only [content, resize]
    rw [List.take_append_of_le_length, List.take_take, Nat.min_eq_left (by omega)]
    rw [List.length_take]
    omega
  · simp only [content, List.drop_zero]
    rw [List.take_append_of_le_length, List.take_of_length_le]
    all_goals
      simp only [readableBytes, List.length_drop, List.length_take]
      omega

theorem content_ensureWritableBytes (b : Buffer) (len : Nat) :
  (b.ensureWritableBytes len).content = b.content
  := by
  rw [ensureWritableBytes]
  split
  · rfl
  · apply content_makeSpace

/-- `append` adds at the end of the readable region. -/
@[simp]
theorem content_append (b : Buffer) (data : Bytes) :
  (b.append data).content = b.content ++ data
  := by
  rw [← b.content_ensureWritableBytes data.length]
  have hr := (b.ensureWritableBytes data.length).readPos_le
  have hw := (b.ensureWritableBytes data.length).writePos_le
  simp only [append, content]
  rw [List.take_append_of_le_length, List.take_of_length_le, List.drop_append_of_le_length]
  all_goals
    simp only [List.length_append, List.length_take]
    omega

end Buffer

end RoomServer
