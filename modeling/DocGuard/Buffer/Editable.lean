import DocGuard.Buffer.Op
import DocGuard.Buffer.Seek

/-! Editable buffers as they are kept: the bytes and, beside them, their number and the place of the
cursor in signed words of 64 bits. Every operation changes each of the three on its own. Sums and
differences of words are checked, and so are the bounds of slices; where a check fails the operation
panics, which gives nothing. -/
namespace DocGuard.Buffer

/-- Where the cursor is asked to go, in words. -/
inductive Offset where
  | start (n : UInt64)
  | fromEnd (n : Int64)
  | fromCursor (n : Int64)
  deriving DecidableEq, Repr

/-- The same with numbers. -/
def Offset.whence : Offset → Whence
  | .start n => .start n.toNat
  | .fromEnd n => .fromEnd n.toInt
  | .fromCursor n => .fromCursor n.toInt

/-- An unsigned word as a signed one, unless it is too large for that. -/
def signedWord? (n : UInt64) : Option Int64 :=
  if n.toNat < 0x8000000000000000 then some (.ofNat n.toNat) else none

/-- The sum of two words, unless it overflows. -/
def addWords? (m n : Int64) : Option Int64 :=
  if m.toBitVec.saddOverflow n.toBitVec then none else some (m + n)

def subWords? (m n : Int64) : Option Int64 :=
  if m.toBitVec.ssubOverflow n.toBitVec then none else some (m - n)

/-- The position asked for, found with words alone. -/
def Offset.target? (size position : Int64) : Offset → Option Int64
  | .start n => signedWord? n
  | .fromEnd n => addWords? size n
  | .fromCursor n => addWords? position n

end DocGuard.Buffer

namespace DocGuard
open Buffer

/-- Bytes, their number, and the place of the cursor. -/
structure EditableBuffer where
  content : List UInt8 := []
  size : Int64 := 0
  position : Int64 := 0
  deriving DecidableEq, Repr

/-- The fields that stand for bytes with a cursor. -/
def Buffer.kept (b : Buffer) : EditableBuffer :=
  ⟨b.content, .ofNat b.size, .ofNat b.position⟩

namespace EditableBuffer

def new (bytes : List UInt8) : EditableBuffer :=
  ⟨bytes, .ofNat bytes.length, 0⟩

/-- A word as an index. A negative one is beyond all bytes. -/
def index (n : Int64) : Nat :=
  n.toUInt64.toNat

/-- The bytes from one index to another. -/
def slice? (bytes : List UInt8) (first last : Nat) : Option (List UInt8) :=
  if first ≤ last ∧ last ≤ bytes.length then some ((bytes.take last).drop first) else none

/-- The bytes with others in the place of those from one index to another. -/
def splice? (bytes : List UInt8) (first last : Nat) (data : List UInt8) : Option (List UInt8) :=
  if first ≤ last ∧ last ≤ bytes.length then some (bytes.take first ++ data ++ bytes.drop last)
  else none

def isEmpty (b : EditableBuffer) : Bool :=
  b.size == 0

def remaining? (b : EditableBuffer) : Option Int64 :=
  subWords? b.size b.position

/-- Copies bytes at the cursor into `buf`, as many as there are and as it has room for, and moves the
cursor past them. It gives their number, and `buf` afterwards. -/
def read (b : EditableBuffer) (buf : List UInt8) :
    Option ((Int64 × List UInt8) × EditableBuffer) := do
  let count := min (.ofNat buf.length) (← b.remaining?)
  if 0 < count then
    let start := index b.position
    let copied ← slice? b.content start (start + index count)
    let filled ← splice? buf 0 (index count) copied
    return ((count, filled), { b with position := ← addWords? b.position count })
  else return ((count, buf), b)

/-- Reads up to `limit` bytes into a new vector; nothing when `limit` is not positive. -/
def readBytes (b : EditableBuffer) (limit : Int64) : Option (List UInt8 × EditableBuffer) := do
  if limit ≤ 0 then return ([], b)
  let room := min limit (← b.remaining?)
  -- no vector has a negative length
  guard (0 ≤ room)
  let ((count, out), next) ← b.read (List.replicate (index room) 0)
  return (out.take (index count), next)

/-- Splices `data` in at the cursor, which then stands behind it. -/
def insert (b : EditableBuffer) (data : List UInt8) :
    Option (Except Error Int64 × EditableBuffer) := do
  if data.isEmpty then return (.ok 0, b)
  let some length := signedWord? (.ofNat data.length)
    | return (.error (.capacityExceeded b.size.toInt Int64.maxValue.toInt), b)
  if (← subWords? Int64.maxValue b.size) < length then
    return (.error (.capacityExceeded b.size.toInt length.toInt), b)
  let place := index b.position
  return (.ok length,
    { content := ← splice? b.content place place data
      size := ← addWords? b.size length
      position := ← addWords? b.position length })

/-- Removes up to `count` bytes behind the cursor, which stays, and tells how many. -/
def delete (b : EditableBuffer) (count : Int64) : Option (Int64 × EditableBuffer) := do
  if count ≤ 0 then return (0, b)
  let deleted := min count (← b.remaining?)
  if 0 < deleted then
    let start := index b.position
    return (deleted,
      { b with
        content := ← splice? b.content start (start + index deleted) []
        size := ← subWords? b.size deleted })
  else return (deleted, b)

/-- Removes up to `count` bytes behind the cursor, then splices `data` in. -/
def update (b : EditableBuffer) (data : List UInt8) (count : Int64) :
    Option (Except Error Int64 × EditableBuffer) := do
  let (_, rest) ← b.delete count
  rest.insert data

def write (b : EditableBuffer) (data : List UInt8) : Option (Except Error Int64 × EditableBuffer) :=
  b.update data ((signedWord? (.ofNat data.length)).getD Int64.maxValue)

def seek (b : EditableBuffer) (position : Int64) : Except Error Unit × EditableBuffer :=
  if position < 0 then (.error (.invalidArgument .negativePosition), b)
  else if b.size < position then
    (.error (.invalidArgument (.positionBeyondEnd position.toInt b.size.toInt)), b)
  else (.ok (), { b with position })

def setSize (b : EditableBuffer) (_size : Int64) : Except Error Unit × EditableBuffer :=
  (.error (.notImplemented "setting stream size directly"), b)

def canRead (_b : EditableBuffer) : Bool :=
  true

def canWrite (_b : EditableBuffer) : Bool :=
  true

def flush (b : EditableBuffer) : Bool × EditableBuffer :=
  (true, b)

end EditableBuffer

/-- The streams that an engine reads and rewrites a document through. A change of a stream gives the
stream as it is afterwards, unless it panics. -/
class EditableStream (σ : Type) where
  read : σ → List UInt8 → Option ((Int64 × List UInt8) × σ)
  write : σ → List UInt8 → Option (Except Error Int64 × σ)
  insert : σ → List UInt8 → Option (Except Error Int64 × σ)
  update : σ → List UInt8 → Int64 → Option (Except Error Int64 × σ)
  delete : σ → Int64 → Option (Int64 × σ)
  flush : σ → Bool × σ
  seek : σ → Int64 → Except Error Unit × σ
  canRead : σ → Bool
  canWrite : σ → Bool
  position : σ → Int64
  size : σ → Int64
  setSize : σ → Int64 → Except Error Unit × σ

instance : EditableStream EditableBuffer where
  read := EditableBuffer.read
  write := EditableBuffer.write
  insert := EditableBuffer.insert
  update := EditableBuffer.update
  delete := EditableBuffer.delete
  flush := EditableBuffer.flush
  seek := EditableBuffer.seek
  canRead := EditableBuffer.canRead
  canWrite := EditableBuffer.canWrite
  position := EditableBuffer.position
  size := EditableBuffer.size
  setSize := EditableBuffer.setSize

/-- Bytes in memory that a caller lends: a signed word counts them. -/
structure Slice where
  bytes : List UInt8
  short : bytes.length ≤ maxLength
  deriving DecidableEq, Repr

/-- Bytes as a slice, cut where no slice is longer. -/
def Slice.ofBytes (bytes : List UInt8) : Slice :=
  ⟨bytes.take maxLength, List.length_take_le ..⟩

/-- The calls that every stream takes. -/
inductive StreamCall where
  | read (buf : Slice)
  | write (data : Slice)
  | insert (data : Slice)
  | update (data : Slice) (count : Int64)
  | delete (count : Int64)
  | flush
  | seek (position : Int64)
  | canRead
  | canWrite
  | position
  | size
  | setSize (size : Int64)
  deriving DecidableEq, Repr

/-- The operation that a call asks for, with numbers for words. -/
def StreamCall.op : StreamCall → Op
  | .read buf => .read buf.bytes.length
  | .write data => .write data.bytes
  | .insert data => .insert data.bytes
  | .update data count => .update data.bytes count.toInt
  | .delete count => .delete count.toInt
  | .flush => .flush
  | .seek place => .seek place.toInt
  | .canRead => .canRead
  | .canWrite => .canWrite
  | .position => .position
  | .size => .size
  | .setSize n => .setSize n.toInt

/-- What a call gives: the number of bytes read and the room for them afterwards, an answer of a buffer,
or an error of a general stream. Words are told as numbers. -/
inductive Reply where
  | filled (count : Int) (buf : List UInt8)
  | answer (a : Answer)
  | refused (cause : StreamError)
  deriving DecidableEq, Repr

def Reply.ofCount (result : Except Error Int64) : Reply :=
  .answer (.ofCount (result.map Int64.toInt))

/-- What a stream replies to a call, and the stream after it. -/
def EditableStream.perform {σ : Type} [EditableStream σ] (s : σ) :
    StreamCall → Option (Reply × σ)
  | .read buf => (read s buf.bytes).map fun ((count, filled), next) =>
    (.filled count.toInt filled, next)
  | .write data => (write s data.bytes).map (.map .ofCount id)
  | .insert data => (insert s data.bytes).map (.map .ofCount id)
  | .update data count => (update s data.bytes count).map (.map .ofCount id)
  | .delete count => (delete s count).map fun (deleted, next) =>
    (.answer (.count deleted.toInt), next)
  | .flush => some (.answer (.flag (flush s).1), (flush s).2)
  | .seek position => some (.answer (.ofUnit (seek s position).1), (seek s position).2)
  | .canRead => some (.answer (.flag (canRead s)), s)
  | .canWrite => some (.answer (.flag (canWrite s)), s)
  | .position => some (.answer (.count (position s).toInt), s)
  | .size => some (.answer (.count (size s).toInt), s)
  | .setSize size => some (.answer (.ofUnit (setSize s size).1), (setSize s size).2)

namespace EditableBuffer

/-- The calls on a buffer: through its own functions, as an editable stream, or as a general byte
stream. -/
inductive Call where
  | own (call : StreamCall)
  | readBytes (limit : Int64)
  | isEmpty
  | stream (call : StreamCall)
  | ioRead (buf : Slice)
  | ioWrite (data : Slice)
  | ioFlush
  deriving DecidableEq, Repr

def Call.op : Call → Op
  | .own call | .stream call => call.op
  | .readBytes limit => .readBytes limit.toInt
  | .isEmpty => .isEmpty
  | .ioRead buf => .read buf.bytes.length
  | .ioWrite data => .write data.bytes
  | .ioFlush => .flush

/-- What the functions of the buffer itself reply. -/
def perform (b : EditableBuffer) : StreamCall → Option (Reply × EditableBuffer)
  | .read buf => (b.read buf.bytes).map fun ((count, filled), next) =>
    (.filled count.toInt filled, next)
  | .write data => (b.write data.bytes).map (.map .ofCount id)
  | .insert data => (b.insert data.bytes).map (.map .ofCount id)
  | .update data count => (b.update data.bytes count).map (.map .ofCount id)
  | .delete count => (b.delete count).map fun (deleted, next) =>
    (.answer (.count deleted.toInt), next)
  | .flush => some (.answer (.flag b.flush.1), b.flush.2)
  | .seek position => some (.answer (.ofUnit (b.seek position).1), (b.seek position).2)
  | .canRead => some (.answer (.flag b.canRead), b)
  | .canWrite => some (.answer (.flag b.canWrite), b)
  | .position => some (.answer (.count b.position.toInt), b)
  | .size => some (.answer (.count b.size.toInt), b)
  | .setSize size => some (.answer (.ofUnit (b.setSize size).1), (b.setSize size).2)

def ioRead (b : EditableBuffer) (buf : List UInt8) :
    Option ((UInt64 × List UInt8) × EditableBuffer) := do
  let ((count, filled), next) ← b.read buf
  return ((count.toUInt64, filled), next)

def ioWrite (b : EditableBuffer) (data : List UInt8) :
    Option (Except StreamError UInt64 × EditableBuffer) := do
  let (result, next) ← b.write data
  return ((result.map Int64.toUInt64).mapError .ofError, next)

/-- Reads exactly `n` bytes. With fewer left it fails and leaves the cursor at the end. -/
def ioReadExact (b : EditableBuffer) (n : Nat) :
    Option (Except StreamError (List UInt8) × EditableBuffer) := do
  let ((count, filled), next) ← b.ioRead (List.replicate n 0)
  return (if count.toNat = n then .ok filled else .error .unexpectedEnd, next)

/-- Reads all bytes from the cursor on. -/
def ioReadToEnd (b : EditableBuffer) : Option (List UInt8 × EditableBuffer) := do
  let ((count, filled), next) ← b.ioRead (List.replicate (index (← b.remaining?)) 0)
  return (filled.take count.toNat, next)

def ioSeek (b : EditableBuffer) (o : Offset) : Except StreamError UInt64 × EditableBuffer :=
  match o.target? b.size b.position with
  | none => (.error .outOfRange, b)
  | some target =>
    match b.seek target with
    | (.ok (), moved) => (.ok moved.position.toUInt64, moved)
    | (.error e, same) => (.error (.ofError e), same)

/-- What a buffer replies to a call, and the buffer after it. -/
def call (b : EditableBuffer) : Call → Option (Reply × EditableBuffer)
  | .own c => b.perform c
  | .readBytes limit => (b.readBytes limit).map fun (data, next) => (.answer (.bytes data), next)
  | .isEmpty => some (.answer (.flag b.isEmpty), b)
  | .stream c => EditableStream.perform b c
  | .ioRead buf => (b.ioRead buf.bytes).map fun ((count, filled), next) =>
    (.filled count.toNat filled, next)
  | .ioWrite data => (b.ioWrite data.bytes).map fun
    | (.ok count, next) => (.answer (.count count.toNat), next)
    | (.error e, next) => (.refused e, next)
  | .ioFlush => some (.answer .done, b)

/-- The replies to some calls, in order, and the buffer after them. -/
def calls (b : EditableBuffer) : List Call → Option (List Reply × EditableBuffer)
  | [] => some ([], b)
  | c :: cs => do
    let (reply, next) ← b.call c
    let (replies, last) ← next.calls cs
    return (reply :: replies, last)

end EditableBuffer
end DocGuard
