import RuntimeLog.Cursor
import RuntimeLog.Text.Quoted

/-!
# Faults

Decoding stops at the first record which cannot be decoded, and keeps all
records before it.  A fault says what was wrong with that record and where it
starts.  An open error, in contrast, leaves nothing to decode: the stream cannot
be read, or its header is not one of the expected format.
-/

namespace RuntimeLog

/-- What can be wrong with a record. -/
inductive DecodeError where
  /-- A field of the record could not be read. -/
  | read (error : ReadError)
  /-- The stream ended inside the record. -/
  | truncated
  | unknownMarker (marker : UInt8) (version : UInt16)
  /-- The offset is that of the payload of the record. -/
  | unknownOpcode (number : UInt16) (offset : Nat)
  | opcodeTableRedeclared
  | unknownTraceKind (kind : String)
  | duplicateTrace (trace : UInt64)
  | traceIdMismatch (expected : Option UInt64) (found : UInt64)
  | noCurrentTrace
  | noActiveStage (trace : UInt64)
  | unknownTrace (trace : UInt64)
  | noTraceAtAddress (address : UInt64)
  | mergePointLayoutMissing
  | unknownFieldKind (kind : UInt8)
  | invalidValueTag (tag : UInt8)
  | invalidPrefixField (field : UInt8)
  | missingCommonPrefix (field : UInt8)
  | unknownFrameKind (kind : UInt64)
  | stackTooDeep (depth : UInt64)
deriving DecidableEq, Repr

namespace DecodeError

/-- A text field which is not UTF-8 makes its record malformed. -/
def invalidUtf8 (offset : Nat) : DecodeError :=
  read (.invalidUtf8 offset)

/-- Whether the record may only be unfinished. -/
def isIncomplete : DecodeError → Bool
  | read .needMoreData => true
  | _ => false

/-- The text of a decode error. -/
def message : DecodeError → String
  | read error => "Read error: " ++ error.message
  | truncated => "The stream ended in the middle of a record"
  | unknownMarker marker version =>
      "Unknown marker " ++ Text.hexByte marker ++ s!" for format version {version}"
  | unknownOpcode number offset => s!"Opcode {number} at offset {offset} was never declared"
  | opcodeTableRedeclared => "The opcode table was declared twice"
  | unknownTraceKind kind => "Unknown trace kind " ++ Text.quoted kind
  | duplicateTrace trace => "Trace " ++ Text.hex trace.toNat ++ " was already started"
  | traceIdMismatch expected found =>
      "Record for trace " ++ Text.hex found.toNat ++ " does not match the current trace " ++
        Text.optionalNumber (expected.map UInt64.toNat)
  | noCurrentTrace => "The record requires a current trace, but no trace was started"
  | noActiveStage trace => "Trace " ++ Text.hex trace.toNat ++ " has no active stage"
  | unknownTrace trace => "Trace " ++ Text.hex trace.toNat ++ " was never declared"
  | noTraceAtAddress address => "No trace was assembled at address " ++ Text.hex address.toNat
  | mergePointLayoutMissing =>
      "A merge point was recorded before its field layout was declared"
  | unknownFieldKind kind => "Unknown merge point field kind " ++ Text.hexByte kind
  | invalidValueTag tag => "Invalid merge point value tag " ++ Text.hexByte tag
  | invalidPrefixField field =>
      s!"Merge point field {field} does not exist or is not a string field"
  | missingCommonPrefix field =>
      s!"Merge point field {field} reuses a prefix that was never declared"
  | unknownFrameKind kind => s!"Unknown stack frame kind {kind}"
  | stackTooDeep depth => s!"Stack trace depth {depth} is too large"

end DecodeError

/-- A decode error with the place in the stream where it arose. -/
structure Fault where
  /-- The offset of the marker of the failing record. -/
  offset : Nat
  /-- The marker, if it could be read. -/
  marker : Option UInt8
  error : DecodeError
deriving DecidableEq, Repr

/-- The text of a fault. -/
def Fault.message (fault : Fault) : String :=
  fault.error.message ++ " (record at offset " ++ toString fault.offset ++ ")"

/-- Why a log cannot be opened. -/
inductive OpenError where
  /-- The stream could not be read. -/
  | unreadable (reason : String)
  | notEnoughBytes
  | unexpectedFormatFlag (expected found : UInt8)
  | unsupportedVersion (version : UInt16)
  | invalidWordSize (flag : UInt8)
  | invalidMachineName
  /-- A compressed stream holds another compressed stream. -/
  | nestedCompression
deriving DecidableEq, Repr

/-- The text of an open error. -/
def OpenError.message : OpenError → String
  | unreadable reason => "I/O error: " ++ reason
  | notEnoughBytes => "The stream does not contain enough bytes to parse the header"
  | unexpectedFormatFlag expected found =>
      "Unexpected format flag " ++ Text.hexByte found ++ ", expected " ++ Text.hexByte expected
  | unsupportedVersion version => s!"Unsupported format version {version}"
  | invalidWordSize flag => s!"Invalid word size flag {flag}"
  | invalidMachineName => "The machine name in the header was not valid utf-8"
  | nestedCompression => "The stream is zstd-compressed, but the zstd feature is disabled"

/-- A change of a model by a record.  What it changed before it failed stays
changed. -/
abbrev Update (Model : Type) : Type → Type := EStateM DecodeError Model

namespace Update

variable {Model α : Type}

/-- Look something up in the model, or fail for the reason for which it is not
there. -/
def look (lookup : Model → Except DecodeError α) : Update Model α := do
  match lookup (← get) with
  | .ok value => return value
  | .error error => throw error

end Update
end RuntimeLog
