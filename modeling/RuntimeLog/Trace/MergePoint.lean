import RuntimeLog.Fault
import RuntimeLog.Reading
import RuntimeLog.Writer
import Std.Data.ExtTreeMap

/-!
# Merge points

A merge point ties a place in a trace to a place in the source of the
interpreted program.  Its fields are declared before it, and texts may be
written as the rest behind a shared start, which is declared per field.
-/

namespace RuntimeLog

/-- What a field of a merge point tells, as a byte. -/
structure FieldType where
  code : UInt8
deriving DecidableEq, Repr

namespace FieldType

def fileName : FieldType := ⟨0x01⟩
def lineNumber : FieldType := ⟨0x02⟩
def bytecodeIndex : FieldType := ⟨0x04⟩
def scope : FieldType := ⟨0x08⟩
def opcode : FieldType := ⟨0x10⟩

/-- The description of a field type. -/
def description (type : FieldType) : String :=
  if type = fileName then Text.quoted "FILENAME"
  else if type = lineNumber then Text.quoted "LINENO"
  else if type = bytecodeIndex then Text.quoted "INDEX"
  else if type = scope then Text.quoted "SCOPE"
  else if type = opcode then Text.quoted "OPCODE"
  else "Unknown MergePointType " ++ Text.hexByte type.code

end FieldType

/-- The sort of the values of a field. -/
inductive ValueKind where
  | text
  | integer
deriving DecidableEq, Repr

namespace ValueKind

/-- The character which declares a kind. -/
def code : ValueKind → UInt8
  | text => 0x73
  | integer => 0x69

/-- The kind which a character declares. -/
def ofCode? (code : UInt8) : Option ValueKind :=
  if code == 0x73 then some text else if code == 0x69 then some integer else none

@[simp] theorem ofCode?_code (kind : ValueKind) : ofCode? kind.code = some kind := by
  cases kind <;> rfl

end ValueKind

/-- A value of a field. -/
inductive FieldValue where
  | text (value : String)
  | integer (value : UInt64)
deriving DecidableEq, Repr

namespace FieldValue

/-- The text of a value, if it is one. -/
def text? : FieldValue → Option String
  | text value => some value
  | integer _ => none

/-- The number of a value, if it is one. -/
def integer? : FieldValue → Option UInt64
  | text _ => none
  | integer value => some value

end FieldValue

/-- A value as it is written. -/
inductive WrittenValue where
  | integer (value : UInt64)
  /-- A whole text. -/
  | whole (value : String)
  /-- The start shared by the texts of the field, and the rest. -/
  | shared (rest : String)
  /-- The shared start and nothing else. -/
  | sharedOnly
deriving DecidableEq, Repr

namespace WrittenValue

/-- The byte in front of a shared start with a rest. -/
def sharedTag : UInt8 := 0x00

/-- The byte in front of an integer. -/
def integerTag : UInt8 := 0x00

/-- The byte for a shared start alone. -/
def sharedOnlyTag : UInt8 := 0xef

/-- The byte in front of a whole text. -/
def wholeTag : UInt8 := 0xff

/-- The fields of a written value. -/
def fields : WrittenValue → List Field
  | integer value => [.u8 integerTag, .u64 value]
  | whole value => [.u8 wholeTag, .text value]
  | shared rest => [.u8 sharedTag, .text rest]
  | sharedOnly => [.u8 sharedOnlyTag]

/-- The value which is meant, given the start which texts of the field share. -/
def resolve (start : Option String) : WrittenValue → Option FieldValue
  | integer value => some (.integer value)
  | whole value => some (.text value)
  | shared rest => start.map fun start => .text (start ++ rest)
  | sharedOnly => start.map .text

end WrittenValue

/-- The declaration of a field of merge points. -/
structure FieldDeclaration where
  type : FieldType
  kind : ValueKind
deriving DecidableEq, Repr

namespace FieldDeclaration

/-- The fields of a declaration. -/
def fields (declaration : FieldDeclaration) : List Field :=
  [.u8 declaration.type.code, .u8 declaration.kind.code]

/-- Read a declaration. -/
def reading : Reading DecodeError FieldDeclaration := do
  let type ← Reading.u8
  let code ← Reading.u8
  match ValueKind.ofCode? code with
  | some kind => return { type := ⟨type⟩, kind }
  | none => Reading.failed (.unknownFieldKind code)

end FieldDeclaration

/-- A field of the merge points of a stage. -/
structure MergeField extends FieldDeclaration where
  /-- The start which texts of the field share, once it is declared. -/
  start : Option String
deriving DecidableEq, Repr

namespace MergeField

/-- A field for which no shared start is declared yet. -/
def declare (declaration : FieldDeclaration) : MergeField :=
  { declaration with start := none }

/-- Read a value of the field at a position of its layout.  A value which needs
a start which was never declared is refused at its first byte. -/
def valueReading (field : MergeField) (position : UInt8) : Reading DecodeError WrittenValue := do
  let tag ← Reading.u8
  match field.kind with
  | .integer =>
      if tag == WrittenValue.integerTag then return .integer (← Reading.u64)
      else Reading.failed (.invalidValueTag tag)
  | .text =>
      if tag == WrittenValue.sharedOnlyTag then
        if field.start.isSome then return .sharedOnly
        else Reading.failed (.missingCommonPrefix position)
      else if tag == WrittenValue.sharedTag then
        if field.start.isSome then return .shared (← Reading.text .invalidUtf8)
        else Reading.failed (.missingCommonPrefix position)
      else if tag == WrittenValue.wholeTag then
        return .whole (← Reading.text .invalidUtf8)
      else Reading.failed (.invalidValueTag tag)

/-- The value which is meant by a written one. -/
def value? (field : MergeField) (written : WrittenValue) : Option FieldValue :=
  written.resolve field.start

end MergeField

/-- The values of the fields of a merge point, by the codes of their types. -/
abbrev FieldValues : Type := Std.ExtTreeMap UInt8 FieldValue compare

/-- A merge point. -/
structure MergePoint where
  /-- The number of merge points before it in its stage. -/
  index : Nat
  values : FieldValues

namespace MergePoint

/-- The values of fields; the last one of a type counts. -/
def valuesOf (values : List (FieldType × FieldValue)) : FieldValues :=
  values.foldl (fun map entry => map.insert entry.1.code entry.2) ∅

/-- The value of a type. -/
def get? (point : MergePoint) (type : FieldType) : Option FieldValue :=
  point.values[type.code]?

def fileName? (point : MergePoint) : Option String :=
  (point.get? .fileName).bind FieldValue.text?

def line? (point : MergePoint) : Option UInt64 :=
  (point.get? .lineNumber).bind FieldValue.integer?

def scope? (point : MergePoint) : Option String :=
  (point.get? .scope).bind FieldValue.text?

def opcode? (point : MergePoint) : Option String :=
  (point.get? .opcode).bind FieldValue.text?

def bytecodeIndex? (point : MergePoint) : Option UInt64 :=
  (point.get? .bytecodeIndex).bind FieldValue.integer?

/-- The source file and line of a merge point which carries both. -/
def location? (point : MergePoint) : Option (String × UInt64) :=
  match point.fileName?, point.line? with
  | some file, some line => some (file, line)
  | _, _ => none

/-- The text of a merge point. -/
def text (point : MergePoint) : String :=
  let scope := match point.scope? with
    | some scope => "<" ++ scope ++ "> "
    | none => ""
  let place := match point.fileName?, point.line? with
    | some file, some line => file ++ ":" ++ toString line
    | some file, none => file
    | none, some line => "line " ++ toString line
    | none, none => ""
  let index := match point.bytecodeIndex? with
    | some index => " #" ++ toString index
    | none => ""
  let opcode := match point.opcode? with
    | some opcode => " " ++ opcode
    | none => ""
  "debug_merge_point(" ++ scope ++ place ++ index ++ opcode ++ ")"

end MergePoint
end RuntimeLog
