import Mathlib.Logic.Function.Basic
import RuntimeLog.Pprof.Message
import RuntimeLog.Proofs.Pprof.Wire

/-!
# Reading pprof profiles

A profile is read back from its bytes.  Every message has a reading of its own, which
finds what the message holds by the tags of its fields.
-/

namespace RuntimeLog
namespace Pprof

open WireField (valuesOf)

/-- Some bytes as a message, whose fields are read. -/
def readMessage? {α : Type} (ofFields? : List WireField → Option α) (bytes : Bytes) : Option α :=
  (WireField.readAll? bytes).bind ofFields?

/-- A message is read back from its bytes if it is from its fields. -/
theorem readMessage?_encodeAll
    {α : Type}
    {ofFields? : List WireField → Option α}
    {fields : α → List WireField}
    (readBack : ∀ value, ofFields? (fields value) = some value)
    (value : α) :
    readMessage? ofFields? (WireField.encodeAll (fields value)) = some value := by
  rw [readMessage?, WireField.readAll?_encodeAll, Option.bind_some, readBack]

/-! ## Messages -/

/-- The value type with some fields. -/
def ValueType.ofFields? (fields : List WireField) : Option ValueType := do
  let type ← WireValue.signed? (valuesOf 1 fields)
  let unit ← WireValue.signed? (valuesOf 2 fields)
  return { type, unit }

/-- The label with some fields. -/
def Label.ofFields? (fields : List WireField) : Option Label := do
  let key ← WireValue.signed? (valuesOf 1 fields)
  let text ← WireValue.signed? (valuesOf 2 fields)
  let number ← WireValue.signed? (valuesOf 3 fields)
  return { key, text, number }

/-- The sample with some fields. -/
def SampleMessage.ofFields? (fields : List WireField) : Option SampleMessage := do
  let locations ← WireValue.packed? (valuesOf 1 fields)
  let values ← WireValue.packedSigned? (valuesOf 2 fields)
  let labels ← WireValue.each? (readMessage? Label.ofFields?) (valuesOf 3 fields)
  return { locations, values, labels }

/-- The mapping with some fields. -/
def Mapping.ofFields? (fields : List WireField) : Option Mapping := do
  let id ← WireValue.unsigned? (valuesOf 1 fields)
  let start ← WireValue.unsigned? (valuesOf 2 fields)
  let limit ← WireValue.unsigned? (valuesOf 3 fields)
  let fileName ← WireValue.signed? (valuesOf 5 fields)
  let hasFunctions ← WireValue.boolean? (valuesOf 7 fields)
  return { id, start, limit, fileName, hasFunctions }

/-- The line with some fields. -/
def Line.ofFields? (fields : List WireField) : Option Line := do
  let function ← WireValue.unsigned? (valuesOf 1 fields)
  let line ← WireValue.signed? (valuesOf 2 fields)
  return { function, line }

/-- The location with some fields. -/
def Location.ofFields? (fields : List WireField) : Option Location := do
  let id ← WireValue.unsigned? (valuesOf 1 fields)
  let mapping ← WireValue.unsigned? (valuesOf 2 fields)
  let address ← WireValue.unsigned? (valuesOf 3 fields)
  let lines ← WireValue.each? (readMessage? Line.ofFields?) (valuesOf 4 fields)
  return { id, mapping, address, lines }

/-- The function with some fields. -/
def FunctionMessage.ofFields? (fields : List WireField) : Option FunctionMessage := do
  let id ← WireValue.unsigned? (valuesOf 1 fields)
  let name ← WireValue.signed? (valuesOf 2 fields)
  let systemName ← WireValue.signed? (valuesOf 3 fields)
  let fileName ← WireValue.signed? (valuesOf 4 fields)
  return { id, name, systemName, fileName }

/-- The profile with some fields. -/
def ProfileMessage.ofFields? (fields : List WireField) : Option ProfileMessage := do
  let sampleTypes ← WireValue.each? (readMessage? ValueType.ofFields?) (valuesOf 1 fields)
  let samples ← WireValue.each? (readMessage? SampleMessage.ofFields?) (valuesOf 2 fields)
  let mappings ← WireValue.each? (readMessage? Mapping.ofFields?) (valuesOf 3 fields)
  let locations ← WireValue.each? (readMessage? Location.ofFields?) (valuesOf 4 fields)
  let functions ← WireValue.each? (readMessage? FunctionMessage.ofFields?) (valuesOf 5 fields)
  let texts ← WireValue.each? Text.ofUtf8? (valuesOf 6 fields)
  let timeNanos ← WireValue.signed? (valuesOf 9 fields)
  let periodType ← WireValue.merged? (readMessage? ValueType.ofFields?) (valuesOf 11 fields)
  let period ← WireValue.signed? (valuesOf 12 fields)
  let comments ← WireValue.packedSigned? (valuesOf 13 fields)
  return {
    sampleTypes, samples, mappings, locations, functions, texts, timeNanos, periodType, period,
    comments }

/-! ## Reading back -/

theorem ValueType.ofFields?_fields (value : ValueType) : ofFields? value.fields = some value := by
  simp [ofFields?, fields]

theorem Label.ofFields?_fields (label : Label) : ofFields? label.fields = some label := by
  simp [ofFields?, fields]

theorem SampleMessage.ofFields?_fields (sample : SampleMessage) :
    ofFields? sample.fields = some sample := by
  have labels := WireValue.each?_map (readMessage?_encodeAll Label.ofFields?_fields) sample.labels
  simp [ofFields?, fields, WireField.message, labels]

theorem Mapping.ofFields?_fields (mapping : Mapping) :
    ofFields? mapping.fields = some mapping := by
  simp [ofFields?, fields]

theorem Line.ofFields?_fields (line : Line) : ofFields? line.fields = some line := by
  simp [ofFields?, fields]

theorem Location.ofFields?_fields (location : Location) :
    ofFields? location.fields = some location := by
  have lines := WireValue.each?_map (readMessage?_encodeAll Line.ofFields?_fields) location.lines
  simp [ofFields?, fields, WireField.message, lines]

theorem FunctionMessage.ofFields?_fields (function : FunctionMessage) :
    ofFields? function.fields = some function := by
  simp [ofFields?, fields]

namespace ProfileMessage

theorem ofFields?_fields (profile : ProfileMessage) : ofFields? profile.fields = some profile := by
  have sampleTypes := WireValue.each?_map (readMessage?_encodeAll ValueType.ofFields?_fields)
    profile.sampleTypes
  have samples := WireValue.each?_map (readMessage?_encodeAll SampleMessage.ofFields?_fields)
    profile.samples
  have mappings := WireValue.each?_map (readMessage?_encodeAll Mapping.ofFields?_fields)
    profile.mappings
  have locations := WireValue.each?_map (readMessage?_encodeAll Location.ofFields?_fields)
    profile.locations
  have functions := WireValue.each?_map (readMessage?_encodeAll FunctionMessage.ofFields?_fields)
    profile.functions
  have texts := WireValue.each?_map Text.ofUtf8?_toUtf8 profile.texts
  have periodType := WireValue.merged?_map (readMessage?_encodeAll ValueType.ofFields?_fields)
    profile.periodType
  simp [ofFields?, fields, WireField.message, Option.toList_map, sampleTypes, samples, mappings,
    locations, functions, texts, periodType]

/-- The profile with some bytes. -/
def ofBytes? (bytes : Bytes) : Option ProfileMessage :=
  readMessage? ofFields? bytes

/-- Every profile is read back from its bytes, so that no two profiles share them. -/
theorem ofBytes?_encode_and_injective :
    (∀ profile : ProfileMessage, ofBytes? profile.encode = some profile) ∧
      Function.Injective encode := by
  have readBack (profile : ProfileMessage) : ofBytes? profile.encode = some profile :=
    readMessage?_encodeAll ofFields?_fields profile
  refine ⟨readBack, fun profile other same => ?_⟩
  rw [← Option.some_inj, ← readBack profile, ← readBack other, same]

end ProfileMessage
end Pprof
end RuntimeLog
