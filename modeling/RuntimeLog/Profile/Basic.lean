import RuntimeLog.Fault
import RuntimeLog.Header
import RuntimeLog.Journal
import RuntimeLog.Words

/-!
# Profiles

A profile holds stack samples and what is needed to read them: names of
interpreter level and native addresses, some metadata and the time at which
profiling started.
-/

namespace RuntimeLog

/-- The sort of code which the address of a sampled frame points to. -/
inductive FrameKind where
  /-- Interpreter or native code, or the address stands for a function. -/
  | code
  /-- Machine code which was compiled at run time. -/
  | jitted
deriving DecidableEq, Repr

/-- A sampled frame before its address is resolved. -/
structure RawFrame where
  kind : FrameKind
  address : UInt64
deriving DecidableEq, Repr

/-- One stack sample. -/
structure Sample where
  /-- The number of ticks which the sample stands for. -/
  count : UInt64
  /-- The stack, root first. -/
  frames : List RawFrame
  thread : UInt64
  /-- The resident memory in KiB at the time of the sample. -/
  memory : Option UInt64
  /-- Whether the sample was taken during compilation. -/
  compiling : Bool
deriving DecidableEq, Repr

/-- The time at which profiling started. -/
structure StartTime where
  seconds : UInt64
  micros : UInt64
  /-- The abbreviation of the time zone. -/
  zone : String
deriving DecidableEq, Repr

/-- A name of an address which replaced another one. -/
structure NameChange where
  address : UInt64
  before : String
  after : String
deriving DecidableEq, Repr

/-- The text of a change. -/
def NameChange.message (change : NameChange) : String :=
  "Virtual address " ++ Text.hex change.address.toNat ++ " renamed from " ++
    Text.quoted change.before ++ " to " ++ Text.quoted change.after

/-- A profile as far as it was decoded. -/
structure Profile where
  header : Header
  samples : Journal Sample
  /-- The names of the interpreter level functions, by the address which stands
  for them. -/
  virtualNames : AddressMap String
  nativeNames : AddressMap String
  /-- Keys and values in the order of the log. -/
  metadata : Journal (String × String)
  startTime : Option StartTime
  /-- Whether the end of the log was seen. -/
  complete : Bool
  /-- The offset behind the last decoded record. -/
  decodedUntil : Nat
  fault : Option Fault
  /-- All names of interpreter level functions which changed. -/
  nameChanges : Journal NameChange

namespace Profile

/-- A profile without any record. -/
def start (header : Header) : Profile :=
  { header
    samples := .empty
    virtualNames := ∅
    nativeNames := ∅
    metadata := .empty
    startTime := none
    complete := false
    decodedUntil := 0
    fault := none
    nameChanges := .empty }

/-- Name the address of an interpreter level function.  The last name counts. -/
def nameVirtual (profile : Profile) (address : UInt64) (name : String) : Profile :=
  { profile with
    virtualNames := profile.virtualNames.insert address name
    nameChanges :=
      match profile.virtualNames[address]? with
      | some before =>
          if before = name then profile.nameChanges
          else profile.nameChanges.push { address, before, after := name }
      | none => profile.nameChanges }

/-- Name a native address.  The last name counts. -/
def nameNative (profile : Profile) (address : UInt64) (name : String) : Profile :=
  { profile with nativeNames := profile.nativeNames.insert address name }

/-- The last value of a metadata key. -/
def metadataValue? (profile : Profile) (key : String) : Option String :=
  (profile.metadata.find? fun entry => entry.1 == key).map Prod.snd

/-- The sum of all sample counts. -/
def totalTicks (profile : Profile) : UInt64 :=
  Ticks.sum (profile.samples.toList.map Sample.count)

end Profile
end RuntimeLog
