import RuntimeLog.Forest.Update

/-!
# Records of trace logs

The records of a trace log, the fields in which they are written, and how they
are read back.
-/

namespace RuntimeLog
namespace Jitlog

/-- The sorts of records, by their markers. -/
inductive Marker where
  | inputArguments
  | opcodes
  | operation
  | operationWithDescriptor
  | bounds
  | code
  | enterNoopt
  | enterOpt
  | enterAsm
  | stitchBridge
  | startTrace
  | counter
  | layout
  | mergePoint
  | sharedStart
  | abortTrace
  | sourceLines
  | redirect
  | patch
deriving DecidableEq, Repr

namespace Marker

/-- The byte of a marker. -/
def byte : Marker → UInt8
  | inputArguments => 0x10
  | opcodes => 0x11
  | operation => 0x12
  | operationWithDescriptor => 0x13
  | bounds => 0x14
  | code => 0x15
  | enterNoopt => 0x16
  | enterOpt => 0x17
  | enterAsm => 0x18
  | stitchBridge => 0x19
  | startTrace => 0x1a
  | counter => 0x1b
  | layout => 0x1c
  | mergePoint => 0x1d
  | sharedStart => 0x1e
  | abortTrace => 0x1f
  | sourceLines => SourceCache.marker
  | redirect => 0x21
  | patch => 0x22

/-- The markers of all versions. -/
def early : List Marker :=
  [inputArguments, opcodes, operation, operationWithDescriptor, bounds, code, enterNoopt,
    enterOpt, enterAsm, stitchBridge, startTrace, counter, layout, mergePoint, sharedStart,
    abortTrace, sourceLines]

/-- The markers which the last version adds. -/
def later : List Marker :=
  [redirect, patch]

/-- The marker of the record which enters a stage. -/
def enter : StageKind → Marker
  | .noopt => enterNoopt
  | .opt => enterOpt
  | .asm => enterAsm

end Marker

/-- A record of a trace log. -/
inductive Record where
  | inputArguments (list : String)
  | opcodes (names : List (UInt16 × String))
  /-- An operation, with the number of its descriptor if it has one. -/
  | operation
      (opcode : UInt16)
      (arguments : String)
      (failArguments : Option String)
      (descriptor : Option UInt64)
  | bounds (start finish : UInt64)
  | code (code : CodeSnippet)
  | enterStage (kind : StageKind) (trace : UInt64)
  | stitchBridge (descriptor address : UInt64)
  | startTrace
      (id : UInt64)
      (kind : String)
      (attachedDescriptor : UInt64)
      (driver : Option String)
  | counter (number : UInt64) (kind : UInt8) (count : UInt64)
  | layout (declarations : List FieldDeclaration)
  | mergePoint (values : List WrittenValue)
  | sharedStart (field : UInt8) (start : String)
  | abortTrace (id : UInt64)
  | sourceLines (file : String) (lines : List (UInt16 × SourceLine))
  | redirect (before after target : UInt64)
  | patch (address : UInt64) (bytes : Bytes)
deriving DecidableEq, Repr

/-- The first version in which operations tell the values kept when a guard
fails, and traces their driver. -/
def detailVersion : UInt16 := 2

namespace Record

/-- The marker of a record. -/
def marker : Record → Marker
  | inputArguments _ => .inputArguments
  | opcodes _ => .opcodes
  | operation _ _ _ none => .operation
  | operation _ _ _ (some _) => .operationWithDescriptor
  | bounds .. => .bounds
  | code _ => .code
  | enterStage kind _ => .enter kind
  | stitchBridge .. => .stitchBridge
  | startTrace .. => .startTrace
  | counter .. => .counter
  | layout _ => .layout
  | mergePoint _ => .mergePoint
  | sharedStart .. => .sharedStart
  | abortTrace _ => .abortTrace
  | sourceLines .. => .sourceLines
  | redirect .. => .redirect
  | patch .. => .patch

/-- The fields of a record behind its marker. -/
def fields : Record → List Field
  | inputArguments list => [.text list]
  | opcodes names =>
      .u16 (UInt16.ofNat names.length) ::
        names.flatMap fun entry => [.u16 entry.1, .text entry.2]
  | operation opcode arguments failArguments descriptor =>
      [.u16 opcode, .text arguments] ++ (failArguments.map Field.text).toList ++
        (descriptor.map Field.address).toList
  | bounds start finish => [.address start, .address finish]
  | code snippet => [.u16 snippet.offset, .blob snippet.bytes]
  | enterStage _ trace => [.address trace]
  | stitchBridge descriptor address => [.address descriptor, .address address]
  | startTrace id kind attachedDescriptor driver =>
      [.address id, .text kind, .address attachedDescriptor] ++ (driver.map Field.text).toList
  | counter number kind count => [.address number, .u8 kind, .u64 count]
  | layout declarations =>
      .u8 (UInt8.ofNat declarations.length) :: declarations.flatMap FieldDeclaration.fields
  | mergePoint values => values.flatMap WrittenValue.fields
  | sharedStart field start => [.u8 field, .text start]
  | abortTrace id => [.address id]
  | sourceLines file lines => SourceCache.recordFields file lines
  | redirect before after target => [.address before, .address after, .address target]
  | patch address bytes => [.address address, .blob bytes]

/-- The bytes of a record. -/
def encode (words : WordSize) (record : Record) : Bytes :=
  Field.encodeAll words (.u8 record.marker.byte :: record.fields)

/-! ## Readings -/

/-- Read a text. -/
def textReading : Reading DecodeError String :=
  Reading.text .invalidUtf8

/-- Read a text which only later versions have. -/
def detailReading (version : UInt16) : Reading DecodeError (Option String) := do
  if detailVersion ≤ version then return some (← textReading) else return none

/-- Read the number and the name of an opcode. -/
def opcodeReading : Reading DecodeError (UInt16 × String) := do
  let number ← Reading.u16
  let name ← textReading
  return (number, name)

/-- Read an operation, with a descriptor or without. -/
def operationReading (words : WordSize) (version : UInt16) (hasDescriptor : Bool) :
    Reading DecodeError Record := do
  let opcode ← Reading.u16
  let arguments ← textReading
  let failArguments ← detailReading version
  if hasDescriptor then
    let descriptor ← Reading.address words
    return operation opcode arguments failArguments (some descriptor)
  else return operation opcode arguments failArguments none

/-- Read a numbered source line. -/
def lineReading : Reading DecodeError (UInt16 × SourceLine) := do
  let line ← Reading.u16
  let indent ← Reading.u8
  let text ← textReading
  return (line, { indent, text })

/-- Read the values of the fields of a layout, from a position on. -/
def valuesReading : UInt8 → List MergeField → Reading DecodeError (List WrittenValue)
  | _, [] => return []
  | position, field :: fields => do
      let value ← field.valueReading position
      let values ← valuesReading (position + 1) fields
      return value :: values

/-- Read a merge point, given the fields which were declared for it. -/
def mergePointReading (layout : Except DecodeError (List MergeField)) :
    Reading DecodeError Record :=
  match layout with
  | .error error => Reading.failed error
  | .ok layout => mergePoint <$> valuesReading 0 layout

/-- Read the fields behind a marker. -/
def reading (words : WordSize) (version : UInt16) (forest : Forest) :
    Marker → Reading DecodeError Record
  | .inputArguments => inputArguments <$> textReading
  | .opcodes => do
      let count ← Reading.u16
      return opcodes (← Reading.repeated count.toNat opcodeReading)
  | .operation => operationReading words version false
  | .operationWithDescriptor => operationReading words version true
  | .bounds => do
      let start ← Reading.address words
      let finish ← Reading.address words
      return bounds start finish
  | .code => do
      let offset ← Reading.u16
      let bytes ← Reading.blob
      return code { offset, bytes }
  | .enterNoopt => enterStage .noopt <$> Reading.address words
  | .enterOpt => enterStage .opt <$> Reading.address words
  | .enterAsm => enterStage .asm <$> Reading.address words
  | .stitchBridge => do
      let descriptor ← Reading.address words
      let address ← Reading.address words
      return stitchBridge descriptor address
  | .startTrace => do
      let id ← Reading.address words
      let kind ← textReading
      let attachedDescriptor ← Reading.address words
      let driver ← detailReading version
      return startTrace id kind attachedDescriptor driver
  | .counter => do
      let number ← Reading.address words
      let kind ← Reading.u8
      let count ← Reading.u64
      return counter number kind count
  | .layout => do
      let count ← Reading.u8
      return layout (← Reading.repeated count.toNat FieldDeclaration.reading)
  | .mergePoint => mergePointReading forest.currentLayout
  | .sharedStart => do
      let field ← Reading.u8
      let start ← textReading
      return sharedStart field start
  | .abortTrace => abortTrace <$> Reading.address words
  | .sourceLines => do
      let file ← textReading
      let count ← Reading.u16
      return sourceLines file (← Reading.repeated count.toNat lineReading)
  | .redirect => do
      let before ← Reading.address words
      let after ← Reading.address words
      let target ← Reading.address words
      return redirect before after target
  | .patch => do
      let address ← Reading.address words
      let bytes ← Reading.blob
      return patch address bytes

end Record
end Jitlog
end RuntimeLog
