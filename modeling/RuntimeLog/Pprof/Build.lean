import RuntimeLog.Pprof.Message
import RuntimeLog.Stats

/-!
# Export of profiles

The resolved samples of a profile become a pprof profile.  Every function of a
stack is one function and one location there, whatever address it was sampled
at.
-/

namespace RuntimeLog
namespace Pprof

/-- A number as a signed one, cut at the greatest one. -/
def clamp (number : UInt64) : Int64 :=
  if number ≤ Int64.maxValue.toUInt64 then number.toInt64 else Int64.maxValue

/-- The texts of a profile in the order in which they were first needed. -/
structure TextTable where
  texts : Journal String
deriving DecidableEq, Repr

namespace TextTable

/-- The table which holds only the empty text. -/
def start : TextTable := ⟨Journal.empty.push ""⟩

/-- The place of a text, which is added if it is not there. -/
def intern (table : TextTable) (text : String) : TextTable × Int64 :=
  match table.texts.toList.idxOf? text with
  | some place => (table, Int64.ofNat place)
  | none => (⟨table.texts.push text⟩, Int64.ofNat table.texts.size)

/-- The places of several texts, one after the other. -/
def internAll (table : TextTable) : List String → TextTable × List Int64
  | [] => (table, [])
  | text :: texts =>
      let (table, place) := table.intern text
      let (table, places) := table.internAll texts
      (table, place :: places)

end TextTable

/-- The tables which are filled while samples are exported. -/
structure Tables where
  texts : TextTable
  /-- The functions which have a location, in the order of their ids. -/
  keys : Journal FrameKey
  functions : Journal FunctionMessage
  locations : Journal Location
deriving DecidableEq, Repr

namespace Tables

/-- The location of a frame, which is made for the first frame of its function. -/
def locate (tables : Tables) (space : AddressSpace) (frame : Frame) : Tables × UInt64 :=
  match tables.keys.toList.idxOf? frame.key with
  | some place => (tables, UInt64.ofNat (place + 1))
  | none =>
      let id := UInt64.ofNat (tables.keys.size + 1)
      let (texts, name) := tables.texts.intern frame.name
      let (texts, fileName) :=
        match frame.library.bind space.library? with
        | some library => texts.intern library.name
        | none => (texts, 0)
      let mapping := match frame.library with
        | some number => UInt64.ofNat (number + 1)
        | none => 0
      ({ texts
         keys := tables.keys.push frame.key
         functions := tables.functions.push { id, name, systemName := name, fileName }
         locations := tables.locations.push
          { id, mapping, address := frame.address, lines := [{ function := id, line := 0 }] } },
        id)

/-- The locations of frames, one after the other. -/
def locateAll (tables : Tables) (space : AddressSpace) (frames : List Frame) :
    Tables × List UInt64 :=
  let (tables, ids) := frames.foldl
    (fun (state : Tables × List UInt64) frame =>
      let (tables, id) := state.1.locate space frame
      (tables, id :: state.2)) (tables, [])
  (tables, ids.reverse)

end Tables

/-- The keys of the labels of samples. -/
structure LabelKeys where
  thread : Int64
  tag : Int64
deriving DecidableEq, Repr

/-- Export a sample. -/
def exportSample
    (space : AddressSpace)
    (keys : LabelKeys)
    (tables : Tables)
    (sample : ResolvedSample) : Tables × SampleMessage :=
  let (tables, locations) := tables.locateAll space sample.frames.reverse
  let thread : Label := { key := keys.thread, text := 0, number := clamp sample.thread }
  match sample.topmostTag? with
  | none => (tables, { locations, values := [clamp sample.count], labels := [thread] })
  | some tag =>
      let (texts, name) := tables.texts.intern tag.name
      let label : Label := { key := keys.tag, text := name, number := 0 }
      ({ tables with texts },
        { locations, values := [clamp sample.count], labels := [thread, label] })

/-- Export samples, one after the other. -/
def exportSamples
    (space : AddressSpace)
    (keys : LabelKeys)
    (tables : Tables)
    (samples : List ResolvedSample) : Tables × List SampleMessage :=
  let (tables, found) := samples.foldl
    (fun (state : Tables × List SampleMessage) sample =>
      let (tables, exported) := exportSample space keys state.1 sample
      (tables, exported :: state.2)) (tables, [])
  (tables, found.reverse)

/-- The mapping of a library with a number and a place of its name. -/
def mappingOf (library : Library) (number : Nat) (name : Int64) : Mapping :=
  { id := UInt64.ofNat (number + 1)
    start := library.start
    limit := library.finish
    fileName := name
    hasFunctions := !library.symbols.isEmpty }

/-- The nanoseconds of a start time, cut at the greatest number. -/
def nanosOf (time : StartTime) : Int64 :=
  clamp
    (Ticks.add (Ticks.multiply time.seconds 1000000000) (Ticks.multiply time.micros 1000))

/-- Export the samples of a profile. -/
def build (stats : Stats) : ProfileMessage :=
  let libraries := stats.space.libraries
  let (texts, names) := TextTable.start.internAll (libraries.map Library.name)
  let mappings := (libraries.zipIdx.zip names).map fun entry =>
    mappingOf entry.1.1 entry.1.2 entry.2
  let (texts, threadKey) := texts.intern "thread"
  let (texts, tagKey) := texts.intern "tag"
  let (tables, samples) := exportSamples stats.space { thread := threadKey, tag := tagKey }
    { texts, keys := .empty, functions := .empty, locations := .empty } stats.samples
  let (texts, type) := tables.texts.intern "samples"
  let (texts, unit) := texts.intern "count"
  let (texts, comments) := texts.internAll
    (stats.profile.metadata.toList.map fun entry => entry.1 ++ "=" ++ entry.2)
  { sampleTypes := [{ type, unit }]
    samples
    mappings
    locations := tables.locations.toList
    functions := tables.functions.toList
    texts := texts.texts.toList
    timeNanos := (stats.profile.startTime.map nanosOf).getD 0
    periodType := none
    period := 0
    comments }

end Pprof
end RuntimeLog
