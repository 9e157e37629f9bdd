import DocGuard.Buffer.Basic

/-! Buffers by the conventions of general byte streams: made of what a reader gives, and positioned from
the start, the end or the cursor. -/
namespace DocGuard.Buffer

/-- Where a position is counted from. -/
inductive Whence where
  | start (offset : Nat)
  | fromEnd (offset : Int)
  | fromCursor (offset : Int)
  deriving DecidableEq, Repr

/-- Why a general stream operation failed. -/
inductive StreamError where
  | outOfRange
  | badPosition (cause : ArgumentError)
  | unexpectedEnd
  | other (cause : Error)
  deriving DecidableEq, Repr

def StreamError.message : StreamError → String
  | .outOfRange => "seek position out of range"
  | .badPosition cause => cause.message
  | .unexpectedEnd => "failed to fill whole buffer"
  | .other cause => cause.message

/-- What kind of error a caller can tell that it is. One that is passed on is of the kind of its
cause. -/
inductive StreamError.Kind where
  | invalidInput
  | unexpectedEnd
  | kindOf (cause : Error)
  deriving DecidableEq, Repr

def StreamError.kind : StreamError → StreamError.Kind
  | .outOfRange | .badPosition _ => .invalidInput
  | .unexpectedEnd => .unexpectedEnd
  | .other cause => .kindOf cause

/-- An error of the buffer as an error of a general stream. -/
def StreamError.ofError : Error → StreamError
  | .invalidArgument cause => .badPosition cause
  | cause => .other cause

/-- The position asked for, without bounds. -/
def target (b : Buffer) : Whence → Int
  | .start offset => offset
  | .fromEnd offset => b.size + offset
  | .fromCursor offset => b.position + offset

/-- The range of signed numbers of 64 bits. -/
def isSigned64 (n : Int) : Bool :=
  -0x8000000000000000 ≤ n && n < 0x8000000000000000

/-- Moves the cursor and gives its new position. A target that is no signed number of 64 bits fails
before the buffer is asked. -/
def seekTo (b : Buffer) (whence : Whence) : Except StreamError Nat × Buffer :=
  if isSigned64 (b.target whence) then
    match b.seek (b.target whence) with
    | (.ok (), moved) => (.ok moved.position, moved)
    | (.error e, same) => (.error (.ofError e), same)
  else (.error .outOfRange, b)

/-- The buffer over all that a reader gives: its chunks one after the other, unless it fails in the
end. -/
def ofReader (chunks : List (List UInt8)) (failure : Option FileError) : Except Error Buffer :=
  match failure with
  | none => .ok (ofBytes chunks.flatten)
  | some cause => .error (.io cause)

end DocGuard.Buffer
