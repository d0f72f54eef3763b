import RuntimeLog.Profile.Basic
import RuntimeLog.Reading

/-!
# Records of profiles

The records of a profile, the fields in which they are written, and how they are
read back.
-/

namespace RuntimeLog
namespace Profile

/-- The sorts of records, by their markers. -/
inductive Marker where
  | stackTrace
  | virtualName
  | trailer
  | metadata
  | nativeName
  | startTime
deriving DecidableEq, Repr

/-- The byte of a marker. -/
def Marker.byte : Marker → UInt8
  | stackTrace => 0x01
  | virtualName => 0x02
  | trailer => 0x03
  | metadata => 0x04
  | nativeName => 0x05
  | startTime => 0x06

/-- An entry of a logged stack. -/
inductive StackEntry where
  | frame (frame : RawFrame)
  /-- No frame, but the note that the sample was taken during compilation. -/
  | compiling (address : UInt64)
deriving DecidableEq, Repr

namespace StackEntry

/-- The number which says what an entry is. -/
def kind : StackEntry → UInt64
  | frame ⟨.code, _⟩ => 1
  | frame ⟨.jitted, _⟩ => 3
  | compiling _ => 4

/-- The address of an entry. -/
def address : StackEntry → UInt64
  | frame raw => raw.address
  | compiling address => address

/-- The entry of a kind number and an address. -/
def ofKind? (kind address : UInt64) : Option StackEntry :=
  if kind == 1 then some (frame ⟨.code, address⟩)
  else if kind == 3 then some (frame ⟨.jitted, address⟩)
  else if kind == 4 then some (compiling address)
  else none

/-- The frame of an entry, if it is one. -/
def frame? : StackEntry → Option RawFrame
  | frame raw => some raw
  | compiling _ => none

@[simp] theorem ofKind?_kind_address (entry : StackEntry) :
    ofKind? entry.kind entry.address = some entry := by
  rcases entry with ⟨kind, address⟩ | address
  · cases kind <;> rfl
  · rfl

end StackEntry

/-- A record of a profile. -/
inductive Record where
  /-- A stack, leaf first. -/
  | stackTrace
      (count : UInt64)
      (entries : List StackEntry)
      (thread : UInt64)
      (memory : Option UInt64)
  | virtualName (address : UInt64) (name : String)
  | trailer
  | metadata (key value : String)
  | nativeName (address : UInt64) (name : String)
  /-- The zone is eight bytes, of which those before the first zero count. -/
  | startTime (seconds micros : UInt64) (zone : Bytes)
deriving DecidableEq, Repr

/-- The deepest stack which is accepted. -/
def deepestStack : UInt64 := 65536

/-- The first version in which samples tell the resident memory. -/
def memoryVersion : UInt16 := 3

/-- The number of bytes of a time zone. -/
def zoneWidth : Nat := 8

namespace Record

/-- The marker of a record. -/
def marker : Record → Marker
  | stackTrace .. => .stackTrace
  | virtualName .. => .virtualName
  | trailer => .trailer
  | metadata .. => .metadata
  | nativeName .. => .nativeName
  | startTime .. => .startTime

/-- The fields of an entry of a stack. -/
def entryFields (entry : StackEntry) : List Field :=
  [.address entry.kind, .address entry.address]

/-- The fields of a record behind its marker. -/
def fields : Record → List Field
  | stackTrace count entries thread memory =>
      [.address count, .address (UInt64.ofNat entries.length)] ++
        entries.flatMap entryFields ++ [.address thread] ++
        (memory.map Field.address).toList
  | virtualName address name => [.address address, .text name]
  | trailer => []
  | metadata key value => [.text key, .text value]
  | nativeName address name => [.address address, .text name]
  | startTime seconds micros zone => [.u64 seconds, .u64 micros, .raw zone]

/-- The bytes of a record. -/
def encode (words : WordSize) (record : Record) : Bytes :=
  Field.encodeAll words (.u8 record.marker.byte :: record.fields)

/-- Read an entry of a stack. -/
def entryReading (words : WordSize) : Reading DecodeError StackEntry := do
  let kind ← Reading.address words
  let address ← Reading.address words
  match StackEntry.ofKind? kind address with
  | some entry => return entry
  | none => Reading.failed (.unknownFrameKind kind)

/-- Read a stack with its count, thread and memory. -/
def stackTraceReading (words : WordSize) (version : UInt16) : Reading DecodeError Record := do
  let count ← Reading.address words
  let depth ← Reading.address words
  if deepestStack < depth then
    Reading.failed (.stackTooDeep depth)
  else
    let entries ← Reading.repeated depth.toNat (entryReading words)
    let thread ← Reading.address words
    if memoryVersion ≤ version then
      let memory ← Reading.address words
      return stackTrace count entries thread (some memory)
    else
      return stackTrace count entries thread none

/-- Read the fields behind a marker. -/
def reading (words : WordSize) (version : UInt16) : Marker → Reading DecodeError Record
  | .stackTrace => stackTraceReading words version
  | .virtualName => do
      let address ← Reading.address words
      let name ← Reading.text .invalidUtf8
      return virtualName address name
  | .trailer => return trailer
  | .metadata => do
      let key ← Reading.text .invalidUtf8
      let value ← Reading.text .invalidUtf8
      return metadata key value
  | .nativeName => do
      let address ← Reading.address words
      let name ← Reading.text .invalidUtf8
      return nativeName address name
  | .startTime => do
      let seconds ← Reading.u64
      let micros ← Reading.u64
      let zone ← Reading.bytes zoneWidth
      return startTime seconds micros zone

end Record
end Profile
end RuntimeLog
