import DocGuard.Buffer.Basic

/-! The operations that an engine performs on a buffer, as data, and histories of them. -/
namespace DocGuard.Buffer

/-- One operation on a buffer. -/
inductive Op where
  | read (n : Nat)
  | readBytes (n : Int)
  | insert (data : List UInt8)
  | delete (n : Int)
  | update (data : List UInt8) (n : Int)
  | write (data : List UInt8)
  | seek (position : Int)
  | setSize (size : Int)
  | flush
  | canRead
  | canWrite
  | isEmpty
  | position
  | size
  | drain (chunk : Nat)
  deriving DecidableEq, Repr

/-- What an operation answers. -/
inductive Answer where
  | bytes (data : List UInt8)
  | count (n : Int)
  | flag (value : Bool)
  | done
  | failed (cause : Error)
  deriving DecidableEq, Repr

def Answer.ofCount : Except Error Int → Answer
  | .ok n => .count n
  | .error e => .failed e

def Answer.ofUnit : Except Error Unit → Answer
  | .ok () => .done
  | .error e => .failed e

/-- The answer to an operation and the buffer after it. -/
def step (b : Buffer) : Op → Answer × Buffer
  | .read n => (.bytes (b.read n).1, (b.read n).2)
  | .readBytes n => (.bytes (b.readBytes n).1, (b.readBytes n).2)
  | .insert data => (.ofCount (b.insert data).1, (b.insert data).2)
  | .delete n => (.count (b.delete n).1, (b.delete n).2)
  | .update data n => (.ofCount (b.update data n).1, (b.update data n).2)
  | .write data => (.ofCount (b.write data).1, (b.write data).2)
  | .seek position => (.ofUnit (b.seek position).1, (b.seek position).2)
  | .setSize size => (.ofUnit (b.setSize size).1, (b.setSize size).2)
  | .flush => (.flag b.flush.1, b.flush.2)
  | .canRead => (.flag true, b)
  | .canWrite => (.flag true, b)
  | .isEmpty => (.flag b.isEmpty, b)
  | .position => (.count b.position, b)
  | .size => (.count b.size, b)
  | .drain chunk => (.bytes (b.drain chunk).1, (b.drain chunk).2)

/-- The answers to a list of operations, in order, and the buffer after them. -/
def steps (b : Buffer) : List Op → List Answer × Buffer
  | [] => ([], b)
  | op :: ops =>
    let (answer, next) := b.step op
    let (answers, last) := next.steps ops
    (answer :: answers, last)

end DocGuard.Buffer
