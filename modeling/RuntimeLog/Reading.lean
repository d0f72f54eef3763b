import RuntimeLog.Text.Utf8
import RuntimeLog.Words

/-!
# Resumable readings

A reading describes how a value is read from the front of a byte string.  It
asks for its input in pieces of a known length, may ask where in the stream it
stands, and ends with a value or with a cause of failure.  What is left of a
reading which ran out of input is a reading again, so that it can go on once
more bytes are there.  The fields of records are read in this way.
-/

namespace RuntimeLog

/-- A way to read a value of type `α`, which fails for causes of type `ε`. -/
inductive Reading (ε α : Type) where
  /-- Nothing more is needed. -/
  | done (value : α)
  /-- The bytes read so far cannot be the start of any value. -/
  | failed (cause : ε)
  /-- Go on with the next `count` bytes. -/
  | take (count : Nat) (next : Bytes → Reading ε α)
  /-- Go on with the stream offset of the next byte. -/
  | locate (next : Nat → Reading ε α)

/-- What became of a reading on the bytes at hand.  `used` counts the bytes it
took. -/
inductive Outcome (ε α : Type) where
  | complete (value : α) (used : Nat)
  | incomplete
  | malformed (cause : ε) (used : Nat)
deriving DecidableEq, Repr

namespace Reading

variable {ε δ α β : Type}

/-- Go on with a second reading which may depend on the value of the first. -/
def bind : Reading ε α → (α → Reading ε β) → Reading ε β
  | done value, next => next value
  | failed cause, _ => failed cause
  | take count more, next => take count fun piece => bind (more piece) next
  | locate more, next => locate fun offset => bind (more offset) next

instance : Monad (Reading ε) where
  pure := done
  bind := bind

/-- Rename the causes of failure. -/
def mapCause (rename : ε → δ) : Reading ε α → Reading δ α
  | done value => done value
  | failed cause => failed (rename cause)
  | take count more => take count fun piece => mapCause rename (more piece)
  | locate more => locate fun offset => mapCause rename (more offset)

/-- How far a reading got: what is left of it and how many bytes it took. -/
structure Progress (ε α : Type) where
  reading : Reading ε α
  used : Nat

/-- A reading which took nothing yet. -/
def Progress.start (reading : Reading ε α) : Progress ε α :=
  { reading, used := 0 }

/-- Go on with a reading which took `used` bytes from the stream offset `start`
on, as far as the bytes at hand allow. -/
def advanceFrom (start : Nat) : Reading ε α → (used : Nat) → Bytes → Progress ε α
  | done value, used, _ => { reading := done value, used }
  | failed cause, used, _ => { reading := failed cause, used }
  | take count more, used, bytes =>
      match bytes.splitExactly count with
      | none => { reading := take count more, used }
      | some (piece, rest) => advanceFrom start (more piece) (used + count) rest
  | locate more, used, bytes => advanceFrom start (more (start + used)) used bytes

/-- Go on with a reading which started at a stream offset, as far as the next
bytes allow. -/
def Progress.advance (progress : Progress ε α) (start : Nat) (bytes : Bytes) : Progress ε α :=
  progress.reading.advanceFrom start progress.used bytes

/-- What is known from how far a reading got. -/
def Progress.outcome (progress : Progress ε α) : Outcome ε α :=
  match progress.reading with
  | done value => .complete value progress.used
  | failed cause => .malformed cause progress.used
  | _ => .incomplete

/-- Run a reading on bytes which start at a stream offset. -/
def run (reading : Reading ε α) (start : Nat) (bytes : Bytes) : Outcome ε α :=
  ((Progress.start reading).advance start bytes).outcome

@[simp] theorem done_bind (value : α) (next : α → Reading ε β) :
    (done value >>= next) = next value := rfl

@[simp] theorem failed_bind (cause : ε) (next : α → Reading ε β) :
    (failed cause >>= next) = failed cause := rfl

@[simp] theorem take_bind
    (count : Nat)
    (more : Bytes → Reading ε α)
    (next : α → Reading ε β) :
    (take count more >>= next) = take count fun piece => more piece >>= next := rfl

@[simp] theorem locate_bind
    (more : Nat → Reading ε α)
    (next : α → Reading ε β) :
    (locate more >>= next) = locate fun offset => more offset >>= next := rfl

/-! ## Bytes and numbers -/

/-- The next `count` bytes. -/
def bytes (count : Nat) : Reading ε Bytes :=
  take count done

/-- A little-endian number of a given width. -/
def natural (width : Nat) : Reading ε Nat :=
  take width fun piece => done (LittleEndian.decode piece)

/-- One byte. -/
def u8 : Reading ε UInt8 :=
  UInt8.ofNat <$> natural 1

/-- A number of two bytes. -/
def u16 : Reading ε UInt16 :=
  UInt16.ofNat <$> natural 2

/-- A number of four bytes. -/
def u32 : Reading ε UInt32 :=
  UInt32.ofNat <$> natural 4

/-- A number of eight bytes. -/
def u64 : Reading ε UInt64 :=
  UInt64.ofNat <$> natural 8

/-- A byte string behind its length in four bytes. -/
def blob : Reading ε Bytes := do
  bytes (← natural 4)

/-! ## Fields of records -/

/-- An address; it is as wide as the words of the stream. -/
def address (words : WordSize) : Reading ε UInt64 :=
  UInt64.ofNat <$> natural words.bytes

/-- A text behind its length in four bytes.  Where the bytes are not UTF-8 the
cause of failure is made from the offset of the length. -/
def text (invalidAt : Nat → ε) : Reading ε String :=
  locate fun start => do
    match Text.ofUtf8? (← blob) with
    | some value => done value
    | none => failed (invalidAt start)

/-! ## Repetition -/

/-- Read an item `count` times, behind the items in the reversed list. -/
def repeatedFrom (item : Reading ε α) : Nat → List α → Reading ε (List α)
  | 0, found => done found.reverse
  | count + 1, found => item.bind fun value => repeatedFrom item count (value :: found)

/-- Read an item `count` times. -/
def repeated (count : Nat) (item : Reading ε α) : Reading ε (List α) :=
  repeatedFrom item count []

end Reading
end RuntimeLog
