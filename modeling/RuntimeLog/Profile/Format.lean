import RuntimeLog.LogReader
import RuntimeLog.Profile.Record

/-!
# The format of profiles

What every record of a profile does to the profile, and which records there are
in which version.
-/

namespace RuntimeLog
namespace Profile

/-- The first byte of every profile. -/
def formatFlag : UInt8 := 0x50

/-- The records of the first version. -/
def earlyMarkers : List Marker :=
  [.stackTrace, .virtualName, .trailer, .metadata]

/-- The records which later versions add. -/
def laterMarkers : List Marker :=
  [.nativeName, .startTime]

/-- The markers of a version. -/
def markers? (version : UInt16) : Option (MarkerTable Marker) :=
  let table := fun (last : Marker) (markers : List Marker) =>
    (MarkerTable.empty version Marker.stackTrace.byte last.byte).insertAll
      (markers.map fun marker => (marker.byte, marker))
  if version == 1 then some (table .metadata earlyMarkers)
  else if version == 2 || version == 3 then some (table .startTime (earlyMarkers ++ laterMarkers))
  else none

/-- The sample of a logged stack: the root comes first, and notes are no
frames. -/
def sampleOf
    (count : UInt64)
    (entries : List StackEntry)
    (thread : UInt64)
    (memory : Option UInt64) : Sample :=
  { count
    frames := (entries.filterMap StackEntry.frame?).reverse
    thread
    memory
    compiling := entries.any fun entry => entry.frame?.isNone }

/-- The time zone in some bytes: those before the first zero. -/
def zoneOf (zone : Bytes) : String :=
  Text.ofUtf8WithReplacement (zone.takeWhile (· != 0))

/-- What a record does to a profile. -/
def apply (record : Record) (profile : Profile) : Profile :=
  match record with
  | .stackTrace count entries thread memory =>
      { profile with samples := profile.samples.push (sampleOf count entries thread memory) }
  | .virtualName address name => profile.nameVirtual address name
  | .trailer => { profile with complete := true }
  | .metadata key value => { profile with metadata := profile.metadata.push (key, value) }
  | .nativeName address name => profile.nameNative address name
  | .startTime seconds micros zone =>
      { profile with startTime := some { seconds, micros, zone := zoneOf zone } }

/-- The format of profiles. -/
def format : LogFormat Marker Record Profile where
  flag := formatFlag
  markers? := markers?
  start := start
  payload header _ marker := Record.reading header.words header.version marker
  apply _ record := modify (apply record)
  advance profile offset := { profile with decodedUntil := offset }
  stop profile fault := { profile with fault := some fault }
  isComplete profile := profile.complete

end Profile
end RuntimeLog
