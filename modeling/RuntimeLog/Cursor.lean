import RuntimeLog.Reading

/-!
# Cursors

A cursor walks over a byte string which is part of a stream.  It looks at the bytes of a
field before it moves past them, so that a field which is not there completely leaves it
where it was.  A reading can be run at a cursor, too.
-/

namespace RuntimeLog

/-- Why a single field could not be read. -/
inductive ReadError where
  /-- More bytes are needed; the same read may succeed later. -/
  | needMoreData
  /-- A text is not UTF-8; the offset is that of its length. -/
  | invalidUtf8 (offset : Nat)
deriving DecidableEq, Repr

/-- The text of a read error. -/
def ReadError.message : ReadError → String
  | needMoreData => "Not enough data"
  | invalidUtf8 offset => s!"The string at offset {offset} was not valid utf-8"

/-- A place in a byte string. -/
structure Cursor where
  /-- The bytes which were not read yet. -/
  unread : Bytes
  /-- How many bytes were read. -/
  position : Nat
  /-- The stream offset of the first byte. -/
  base : Nat
  words : WordSize
  version : UInt16
deriving DecidableEq, Repr

namespace Cursor

/-- A cursor at the start of a byte string. -/
def start (bytes : Bytes) (base : Nat) (words : WordSize) (version : UInt16) : Cursor :=
  { unread := bytes, position := 0, base, words, version }

/-- The stream offset of the next unread byte. -/
def offset (cursor : Cursor) : Nat :=
  cursor.base + cursor.position

/-- The number of unread bytes. -/
def remaining (cursor : Cursor) : Nat :=
  cursor.unread.length

/-- Move past `count` bytes. -/
def advance (cursor : Cursor) (count : Nat) : Cursor :=
  { cursor with
    unread := cursor.unread.drop count
    position := cursor.position + count }

/-! ## Fields -/

/-- The next bytes, if there are as many. -/
def peek (cursor : Cursor) (count : Nat) : Except ReadError Bytes :=
  match Bytes.splitExactly count cursor.unread with
  | some (piece, _) => .ok piece
  | none => .error .needMoreData

/-- Take exactly some number of bytes. -/
def readBytes (cursor : Cursor) (count : Nat) : Except ReadError Bytes × Cursor :=
  match cursor.peek count with
  | .ok piece => (.ok piece, cursor.advance count)
  | .error cause => (.error cause, cursor)

/-- Take a little-endian number of some width. -/
def readNatural (cursor : Cursor) (width : Nat) : Except ReadError Nat × Cursor :=
  match cursor.readBytes width with
  | (.ok piece, next) => (.ok (LittleEndian.decode piece), next)
  | (.error cause, next) => (.error cause, next)

/-- Take a byte string behind its length in four bytes. -/
def readBlob (cursor : Cursor) : Except ReadError Bytes × Cursor :=
  match cursor.peek 4 with
  | .error cause => (.error cause, cursor)
  | .ok length =>
      match cursor.peek (4 + LittleEndian.decode length) with
      | .error cause => (.error cause, cursor)
      | .ok piece => (.ok (piece.drop 4), cursor.advance (4 + LittleEndian.decode length))

/-- Take a text behind its length in four bytes. -/
def readText (cursor : Cursor) : Except ReadError String × Cursor :=
  match cursor.readBlob with
  | (.error cause, next) => (.error cause, next)
  | (.ok piece, next) =>
      match Text.ofUtf8? piece with
      | some value => (.ok value, next)
      | none => (.error (.invalidUtf8 cursor.offset), next)

/-! ## Readings -/

/-- Run a reading at the cursor. -/
def read {α : Type} (cursor : Cursor) (reading : Reading ReadError α) :
    Except ReadError α × Cursor :=
  match reading.run cursor.offset cursor.unread with
  | .complete value used => (.ok value, cursor.advance used)
  | .incomplete => (.error .needMoreData, cursor)
  | .malformed cause used => (.error cause, cursor.advance used)

end Cursor
end RuntimeLog
