import DocGuard.Error

/-! Editable buffers: bytes with a cursor, that can be spliced at the cursor as well as overwritten.
Lengths and positions given by a caller are signed; a length below one asks for nothing. The size is
the length of the content here; `EditableBuffer` keeps it in a field of its own. -/
namespace DocGuard

/-- Bytes with a cursor that never stands past their end. -/
structure Buffer where
  content : List UInt8
  position : Nat
  position_le : position ≤ content.length

namespace Buffer

/-- The largest length of a buffer: lengths are signed numbers of 64 bits. -/
def maxLength : Nat := 0x7FFFFFFFFFFFFFFF

/-- The buffer over the given bytes, with the cursor at the start. -/
def ofBytes (bytes : List UInt8) : Buffer :=
  ⟨bytes, 0, Nat.zero_le _⟩

def size (b : Buffer) : Nat :=
  b.content.length

def remaining (b : Buffer) : Nat :=
  b.size - b.position

def isEmpty (b : Buffer) : Bool :=
  b.size == 0

/-- Takes up to `n` bytes at the cursor and moves it past them. -/
def read (b : Buffer) (n : Nat) : List UInt8 × Buffer :=
  ((b.content.drop b.position).take n,
   ⟨b.content, b.position + min n b.remaining, by
     have := b.position_le
     simp only [remaining, size]
     omega⟩)

/-- Takes up to `n` bytes at the cursor and moves it past them; nothing when `n` is not positive. -/
def readBytes (b : Buffer) (n : Int) : List UInt8 × Buffer :=
  b.read n.toNat

/-- Splices `data` in at the cursor, which then stands behind it. The buffer stays as it is when
it would grow past the largest length. -/
def insert (b : Buffer) (data : List UInt8) : Except Error Int × Buffer :=
  if maxLength < b.size + data.length then
    (.error (.capacityExceeded b.size (min data.length maxLength : Nat)), b)
  else
    (.ok data.length,
     ⟨b.content.take b.position ++ data ++ b.content.drop b.position,
      b.position + data.length, by
        have := b.position_le
        simp only [List.length_append, List.length_take, List.length_drop]
        omega⟩)

/-- Removes up to `n` bytes behind the cursor, which stays, and tells how many. -/
def delete (b : Buffer) (n : Int) : Nat × Buffer :=
  let count := min n.toNat b.remaining
  (count,
   ⟨b.content.take b.position ++ b.content.drop (b.position + count), b.position, by
     have := b.position_le
     simp only [List.length_append, List.length_take]
     omega⟩)

/-- Removes up to `n` bytes behind the cursor, then splices `data` in. The removal stands even if
the splice fails. -/
def update (b : Buffer) (data : List UInt8) (n : Int) : Except Error Int × Buffer :=
  (b.delete n).2.insert data

/-- Overwrites from the cursor on; what does not fit before the end is appended. -/
def write (b : Buffer) (data : List UInt8) : Except Error Int × Buffer :=
  b.update data data.length

/-- Moves the cursor to a position from the start to the end of the content, both included. -/
def seek (b : Buffer) (position : Int) : Except Error Unit × Buffer :=
  if position < 0 then
    (.error (.invalidArgument .negativePosition), b)
  else if h : position.toNat ≤ b.content.length then
    (.ok (), ⟨b.content, position.toNat, h⟩)
  else
    (.error (.invalidArgument (.positionBeyondEnd position b.size)), b)

/-- The size changes by edits only and is not set directly. -/
def setSize (b : Buffer) (_size : Int) : Except Error Unit × Buffer :=
  (.error (.notImplemented "setting stream size directly"), b)

def flush (b : Buffer) : Bool × Buffer :=
  (true, b)

/-- Reads `chunk` bytes at a time until a read gives none. Nothing is read for a chunk of zero
bytes. -/
def drain (chunk : Nat) (b : Buffer) : List UInt8 × Buffer :=
  if _h : 0 < chunk ∧ 0 < b.remaining then
    let rest := drain chunk (b.read chunk).2
    ((b.read chunk).1 ++ rest.1, rest.2)
  else ([], b)
termination_by b.remaining
decreasing_by
  have := b.position_le
  simp only [read, remaining, size] at *
  omega

end Buffer
end DocGuard
