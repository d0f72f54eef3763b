import RuntimeLog.Pprof.Wire
import RuntimeLog.Text.Utf8

/-!
# Messages of pprof profiles

The messages of the pprof format, as far as they are filled in here.  Texts are
kept in one table and referred to by their place in it.
-/

namespace RuntimeLog
namespace Pprof

/-- What a value of a sample means. -/
structure ValueType where
  type : Int64
  unit : Int64
deriving DecidableEq, Repr

/-- A label of a sample. -/
structure Label where
  key : Int64
  text : Int64
  number : Int64
deriving DecidableEq, Repr

/-- A sample. -/
structure SampleMessage where
  /-- The locations of the stack, leaf first. -/
  locations : List UInt64
  values : List Int64
  labels : List Label
deriving DecidableEq, Repr

/-- A mapped library. -/
structure Mapping where
  id : UInt64
  start : UInt64
  limit : UInt64
  fileName : Int64
  hasFunctions : Bool
deriving DecidableEq, Repr

/-- A line of a function. -/
structure Line where
  function : UInt64
  line : Int64
deriving DecidableEq, Repr

/-- A place in the code. -/
structure Location where
  id : UInt64
  mapping : UInt64
  address : UInt64
  lines : List Line
deriving DecidableEq, Repr

/-- A function. -/
structure FunctionMessage where
  id : UInt64
  name : Int64
  systemName : Int64
  fileName : Int64
deriving DecidableEq, Repr

/-- A whole profile. -/
structure ProfileMessage where
  sampleTypes : List ValueType
  samples : List SampleMessage
  mappings : List Mapping
  locations : List Location
  functions : List FunctionMessage
  /-- All texts; the first one is empty. -/
  texts : List String
  timeNanos : Int64
  periodType : Option ValueType
  period : Int64
  comments : List Int64
deriving DecidableEq, Repr

/-! ## Fields -/

/-- The fields of a value type. -/
def ValueType.fields (value : ValueType) : List WireField :=
  WireField.signed 1 value.type ++ WireField.signed 2 value.unit

/-- The fields of a label. -/
def Label.fields (label : Label) : List WireField :=
  WireField.signed 1 label.key ++ WireField.signed 2 label.text ++ WireField.signed 3 label.number

/-- The fields of a sample. -/
def SampleMessage.fields (sample : SampleMessage) : List WireField :=
  WireField.packed 1 sample.locations ++ WireField.packedSigned 2 sample.values ++
    sample.labels.map fun label => .message 3 label.fields

/-- The fields of a mapping. -/
def Mapping.fields (mapping : Mapping) : List WireField :=
  WireField.unsigned 1 mapping.id ++ WireField.unsigned 2 mapping.start ++
    WireField.unsigned 3 mapping.limit ++ WireField.signed 5 mapping.fileName ++
    WireField.boolean 7 mapping.hasFunctions

/-- The fields of a line. -/
def Line.fields (line : Line) : List WireField :=
  WireField.unsigned 1 line.function ++ WireField.signed 2 line.line

/-- The fields of a location. -/
def Location.fields (location : Location) : List WireField :=
  WireField.unsigned 1 location.id ++ WireField.unsigned 2 location.mapping ++
    WireField.unsigned 3 location.address ++
    location.lines.map fun line => .message 4 line.fields

/-- The fields of a function. -/
def FunctionMessage.fields (function : FunctionMessage) : List WireField :=
  WireField.unsigned 1 function.id ++ WireField.signed 2 function.name ++
    WireField.signed 3 function.systemName ++ WireField.signed 4 function.fileName

namespace ProfileMessage

/-- The fields of a profile. -/
def fields (profile : ProfileMessage) : List WireField :=
  (profile.sampleTypes.map fun value => .message 1 value.fields) ++
    (profile.samples.map fun sample => .message 2 sample.fields) ++
    (profile.mappings.map fun mapping => .message 3 mapping.fields) ++
    (profile.locations.map fun location => .message 4 location.fields) ++
    (profile.functions.map fun function => .message 5 function.fields) ++
    (profile.texts.map fun text => .bytes 6 (Text.toUtf8 text)) ++
    WireField.signed 9 profile.timeNanos ++
    (profile.periodType.map fun value => WireField.message 11 value.fields).toList ++
    WireField.signed 12 profile.period ++
    WireField.packedSigned 13 profile.comments

/-- The bytes of a profile. -/
def encode (profile : ProfileMessage) : Bytes :=
  WireField.encodeAll profile.fields

end ProfileMessage
end Pprof
end RuntimeLog
