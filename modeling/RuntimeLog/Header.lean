import RuntimeLog.Fault
import RuntimeLog.Writer

/-!
# Headers

Every log starts with a header: the flag of its format, the version, the word
size and the name of the machine.  A flag of another format is reported as soon
as it is there, whatever follows it.
-/

namespace RuntimeLog

/-- The header of a log. -/
structure Header where
  /-- Tells the formats apart. -/
  formatFlag : UInt8
  /-- Every format counts its versions on its own. -/
  version : UInt16
  words : WordSize
  /-- The name of the machine, such as `x86_64`. -/
  machine : String
deriving DecidableEq, Repr

namespace Header

/-- The fields of a header in the order in which they are written. -/
def fields (header : Header) : List Field :=
  [.u8 header.formatFlag, .u16 header.version, .u8 header.words.flag, .text header.machine]

/-- The bytes of a header. -/
def encode (header : Header) : Bytes :=
  Field.encodeAll header.words header.fields

/-- Read a header of the format with the given flag. -/
def reading (expected : UInt8) : Reading OpenError Header := do
  let formatFlag ← Reading.u8
  if formatFlag != expected then
    Reading.failed (.unexpectedFormatFlag expected formatFlag)
  else
    let version ← Reading.u16
    let wordFlag ← Reading.u8
    match WordSize.ofFlag? wordFlag with
    | none => Reading.failed (.invalidWordSize wordFlag)
    | some words =>
        let machine ← Reading.text fun _ => .invalidMachineName
        return { formatFlag, version, words, machine }

/-- The header at the start of a stream and the number of its bytes.  The
result is `none` while the header is not complete. -/
def parse (bytes : Bytes) (expected : UInt8) : Except OpenError (Option (Header × Nat)) :=
  match (reading expected).run 0 bytes with
  | .complete header used => .ok (some (header, used))
  | .incomplete => .ok none
  | .malformed cause _ => .error cause

end Header
end RuntimeLog
