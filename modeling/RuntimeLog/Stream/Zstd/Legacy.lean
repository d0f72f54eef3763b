import RuntimeLog.Stream.Zstd.Block

/-!
# Legacy frames

Behind the first frame of a stream, frames of earlier formats may stand.  Their
first bytes tell the format.  A legacy frame ends at a block of its own sort, or
at the first block without bytes; each of its blocks is decoded once it is
complete, and nothing checks the size of the content.
-/

namespace RuntimeLog
namespace Stream
namespace Zstd

/-- The earlier formats which are read. -/
inductive LegacyFormat where
  | fourth
  | fifth
  | sixth
  | seventh
deriving DecidableEq, Repr

/-- The earlier format of a frame at the start of some bytes.  The first three
formats are known but not read, and `problem` is the answer to other bytes. -/
def LegacyFormat.ofBytes (problem : Problem) (bytes : Bytes) : Except Problem LegacyFormat :=
  match bytes.take magic.length with
  | [0xfd, 0x2f, 0xb5, 0x1e] => .error .unsupportedVersion
  | [number, 0xb5, 0x2f, 0xfd] =>
      if number == 0x22 || number == 0x23 then .error .unsupportedVersion
      else if number == 0x24 then .ok .fourth
      else if number == 0x25 then .ok .fifth
      else if number == 0x26 then .ok .sixth
      else if number == 0x27 then .ok .seventh
      else .error problem
  | _ => .error problem

/-- What the header of a legacy frame says. -/
structure LegacyHeader where
  format : LegacyFormat
  /-- The number of bytes of the header. -/
  width : Nat
  /-- The number of bytes of content which later blocks may refer to. -/
  window : Nat
deriving DecidableEq, Repr

namespace LegacyFormat

/-- The number of bytes of a header behind its descriptor. -/
def fieldsWidth (format : LegacyFormat) (descriptor : UInt8) : Nat :=
  match format with
  | sixth =>
      match descriptor.toNat / 64 with
      | 0 => 0
      | 1 => 1
      | 2 => 2
      | _ => 8
  | seventh => (Descriptor.ofByte descriptor).fieldsWidth
  | _ => 0

/-- The widest window of the seventh format. -/
def greatestWindow : Nat := 128 * 1024 * 1024

/-- The narrowest window of the seventh format which is set aside. -/
def leastWindow : Nat := 1024

/-- The window of the seventh format, of which the size is a 32-bit number. -/
def seventhWindow (descriptor : UInt8) (fields : Bytes) : Except Problem Nat :=
  match (Descriptor.ofByte descriptor).header fields with
  | .error _ => .error .unsupportedParameter
  | .ok header =>
      let window := header.window % UInt32.size
      if greatestWindow < window then .error .unsupportedParameter
      else if header.dictionary != 0 then .error .wrongDictionary
      else .ok (max window leastWindow)

/-- The window which a header names. -/
def window (format : LegacyFormat) (descriptor : UInt8) (fields : Bytes) : Except Problem Nat :=
  match format with
  | fourth | fifth =>
      if 16 ≤ descriptor.toNat then .error .unsupportedParameter
      else .ok (2048 <<< descriptor.toNat)
  | sixth =>
      if descriptor.toNat / 32 % 2 == 1 then .error .unsupportedParameter
      else .ok (4096 <<< (descriptor.toNat % 16))
  | seventh => seventhWindow descriptor fields

/-- The header at the start of some bytes, or nothing if more of them are
needed. -/
def inspect (format : LegacyFormat) (bytes : Bytes) : Except Problem (Option LegacyHeader) :=
  match bytes.drop magic.length with
  | [] => .ok none
  | descriptor :: rest =>
      match Bytes.splitExactly (format.fieldsWidth descriptor) rest with
      | none => .ok none
      | some (fields, _) => do
          let window ← format.window descriptor fields
          let width := magic.length + 1 + format.fieldsWidth descriptor
          return some { format, width, window }

end LegacyFormat

/-- The number of bytes set aside for input and for output. -/
structure Rooms where
  input : Nat
  output : Nat
deriving DecidableEq, Repr

/-- Nothing set aside. -/
def Rooms.nothing : Rooms := { input := 0, output := 0 }

/-- The number of bytes set aside altogether. -/
def Rooms.total (rooms : Rooms) : Nat :=
  rooms.input + rooms.output

/-- The rooms which are large enough for two purposes. -/
def Rooms.union (first second : Rooms) : Rooms :=
  { input := max first.input second.input, output := max first.output second.output }

namespace LegacyHeader

/-- The most bytes which a block may leave in the memory.  The two older formats
count with the greatest block, whatever the window. -/
def blockLimit (header : LegacyHeader) : Nat :=
  match header.format with
  | .sixth | .seventh => min header.window greatestBlock
  | _ => greatestBlock

/-- The bytes beyond a window and a block which are set aside. -/
def reserve : Nat := 16

/-- The rooms which a frame needs. -/
def rooms (header : LegacyHeader) : Rooms :=
  { input := header.blockLimit
    output :=
      match header.format with
      | .sixth | .seventh => header.window + header.blockLimit + reserve
      | _ => header.window }

end LegacyHeader

/-- What is known about the legacy frame at hand. -/
structure LegacyFrame where
  format : LegacyFormat
  blockLimit : Nat
  rooms : Rooms
  /-- The number of bytes of the memory for content which are taken. -/
  taken : Nat
deriving DecidableEq, Repr

namespace LegacyFrame

/-- The frame behind a header, with some rooms. -/
def start (header : LegacyHeader) (rooms : Rooms) : LegacyFrame :=
  { format := header.format, blockLimit := header.blockLimit, rooms, taken := 0 }

/-- The block behind three bytes of a header: two bits for the sort of the block
and 19 bits for its size.  There is none at the end of the frame. -/
def blockHeader? (first second third : UInt8) : Option BlockHeader :=
  let size := first.toNat % 8 * 65536 + second.toNat * 256 + third.toNat
  match first.toNat / 64 with
  | 0 => some { last := false, sort := .coded, size }
  | 1 => some { last := false, sort := .plain, size }
  | 2 => some { last := false, sort := .run, size }
  | _ => none

/-- The content of a block with some body.  Runs have a number, but none of the
formats reads them. -/
def expand
    (frame : LegacyFrame)
    (header : BlockHeader)
    (body : Bytes) : Except Problem Bytes :=
  let free := frame.rooms.output - frame.taken
  match header.sort with
  | .plain => (Block.plain body).expand free
  | .run => .error .unsupportedBlock
  | _ => Block.coded.expand free

/-- Hand over some content behind the taken bytes.  The memory is used from its
start again once the next block might not fit. -/
def store (frame : LegacyFrame) (size : Nat) : LegacyFrame :=
  let taken := frame.taken + size
  { frame with taken := if frame.rooms.output < taken + frame.blockLimit then 0 else taken }

end LegacyFrame

end Zstd
end Stream
end RuntimeLog
