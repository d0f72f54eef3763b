import RuntimeLog.Fault

/-!
# Marker tables

Every record starts with a marker byte.  The markers of one version of a format
are a contiguous range of bytes, and a table gives a meaning to some or all of
them.  Any other byte at the start of a record is a fault.
-/

namespace RuntimeLog

/-- The meanings of the markers of one format version. -/
structure MarkerTable (Meaning : Type) where
  version : UInt16
  /-- The lowest marker of the range. -/
  first : UInt8
  /-- One place for every marker of the range. -/
  meanings : List (Option Meaning)
deriving DecidableEq, Repr

namespace MarkerTable

variable {Meaning : Type}

/-- A table over a range of markers, none of which has a meaning yet.  A range
which ends before it starts is empty. -/
def empty (version : UInt16) (first last : UInt8) : MarkerTable Meaning :=
  { version, first, meanings := List.replicate (last.toNat + 1 - first.toNat) none }

/-- The position of a marker in the range, if it is at or above its start. -/
def position? (table : MarkerTable Meaning) (marker : UInt8) : Option Nat :=
  if table.first ≤ marker then some (marker.toNat - table.first.toNat) else none

/-- Give a meaning to a marker.  A marker outside the range stays unknown. -/
def insert (table : MarkerTable Meaning) (marker : UInt8) (meaning : Meaning) :
    MarkerTable Meaning :=
  match table.position? marker with
  | some position => { table with meanings := table.meanings.set position (some meaning) }
  | none => table

/-- Give meanings to several markers, one after the other. -/
def insertAll (table : MarkerTable Meaning) (markers : List (UInt8 × Meaning)) :
    MarkerTable Meaning :=
  markers.foldl (fun table entry => table.insert entry.1 entry.2) table

/-- The highest marker of the range; that of an empty range is its start. -/
def last (table : MarkerTable Meaning) : UInt8 :=
  UInt8.ofNat (table.first.toNat + (table.meanings.length - 1))

/-- The meaning of a marker. -/
def lookup (table : MarkerTable Meaning) (marker : UInt8) : Except DecodeError Meaning :=
  match (table.position? marker).bind fun position => (table.meanings[position]?).join with
  | some meaning => .ok meaning
  | none => .error (.unknownMarker marker table.version)

end MarkerTable
end RuntimeLog
