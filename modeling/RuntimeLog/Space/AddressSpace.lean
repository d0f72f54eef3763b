import RuntimeLog.Profile.Basic
import RuntimeLog.Space.Frame
import RuntimeLog.Space.Library

/-!
# Address spaces

An address space resolves sampled addresses to symbols.  Its libraries are kept
in the order of their start addresses, and the last one which starts at or below
an address is asked about it.  Names which stand for addresses come first.
-/

namespace RuntimeLog

/-- The libraries of a process, in the order of their start addresses. -/
structure AddressSpace where
  libraries : List Library
deriving DecidableEq, Repr

/-- Two libraries of which one starts before the other one ends. -/
structure Overlap where
  library : Library
  previous : Library
deriving DecidableEq, Repr

/-- The text of an overlap. -/
def Overlap.message (overlap : Overlap) : String :=
  "Library " ++ overlap.library.name ++ " at " ++ Text.hex overlap.library.start.toNat ++
    " overlaps " ++ overlap.previous.name ++ " which ends at " ++
    Text.hex overlap.previous.finish.toNat

namespace AddressSpace

/-- Order libraries by start address; those with one start keep their order. -/
def sortLibraries (libraries : List Library) : List Library :=
  libraries.mergeSort fun left right => left.start ≤ right.start

/-- The space of some libraries.  There always is one for compiled traces. -/
def ofLibraries (libraries : List Library) : AddressSpace :=
  let hasJit := libraries.any fun library => library.kind = .jit
  let jit := Library.ofRange LibraryKind.jitName 0 0
  ⟨sortLibraries (if hasJit then libraries else libraries ++ [jit])⟩

/-- The space of a profile: the given libraries, the traces of a forest and the
names which the profile declares. -/
def ofProfile (profile : Profile) (libraries : List Library) (forest : Option Forest) :
    AddressSpace :=
  ofLibraries
    (libraries ++ (forest.map Library.ofForest).toList ++
      (Library.ofVirtualNames? profile.virtualNames).toList ++
      (Library.ofNativeNames? profile.nativeNames).toList)

/-- The libraries with their numbers. -/
def numbered (space : AddressSpace) : List (Library × Nat) :=
  space.libraries.zipIdx

/-- The libraries which are asked about ranges of addresses. -/
def ranged (space : AddressSpace) : List (Library × Nat) :=
  space.numbered.filter fun entry => !entry.1.exact

/-- The libraries which are asked about the addresses of symbols only. -/
def exact (space : AddressSpace) : List (Library × Nat) :=
  space.numbered.filter fun entry => entry.1.exact

/-- The number of the library of compiled traces; the last one counts. -/
def jitNumber (space : AddressSpace) : Nat :=
  ((space.numbered.filter fun entry => entry.1.kind = .jit).getLast?.map Prod.snd).getD 0

/-- The overlaps of libraries which follow each other. -/
def overlapsOf : List Library → List Overlap
  | previous :: library :: rest =>
      (if library.start < previous.finish ∧ library.start < library.finish then
        [{ library, previous }] else []) ++ overlapsOf (library :: rest)
  | _ => []

/-- All overlaps of neighbours among the libraries with ranges. -/
def overlaps (space : AddressSpace) : List Overlap :=
  overlapsOf (space.ranged.map Prod.fst)

/-- The library with a number. -/
def library? (space : AddressSpace) (number : Nat) : Option Library :=
  space.libraries[number]?

/-- Whether a frame is in compiled traces. -/
def isJit (space : AddressSpace) (frame : Frame) : Bool :=
  frame.library == some space.jitNumber

/-- Whether a frame is in kernel code or a system library. -/
def isExternal (space : AddressSpace) (frame : Frame) : Bool :=
  (frame.library.bind space.library?).any fun library => library.kind.isExternal

/-- The frame of an address which is the address of a symbol. -/
def lookupExact? (space : AddressSpace) (address : UInt64) : Option Frame :=
  space.exact.findSome? fun entry =>
    (entry.1.exactSymbol? address).map fun symbol =>
      { name := symbol.name
        address
        library := some entry.2
        isVirtual := entry.1.isVirtual }

/-- The last library with a range which starts at or below an address. -/
def rangedBelow? (space : AddressSpace) (address : UInt64) : Option (Library × Nat) :=
  (space.ranged.takeWhile fun entry => entry.1.start ≤ address).getLast?

/-- The frame of an address in the range of a library. -/
def frameIn (library : Library) (number : Nat) (address : UInt64) : Frame :=
  match library.symbolFor? address with
  | some symbol =>
      { name := symbol.name
        address := symbol.address
        library := some number
        isVirtual := library.isVirtual }
  | none =>
      { name := Text.hex address.toNat, address, library := some number, isVirtual := false }

/-- Resolve an address to the nearest symbol at or below it. -/
def lookup (space : AddressSpace) (address : UInt64) : Frame :=
  match space.lookupExact? address with
  | some frame => frame
  | none =>
      match space.rangedBelow? address with
      | none => .unknown address
      | some (library, number) =>
          if library.contains address then frameIn library number address else .unknown address

/-- Resolve a sampled frame.  Compiled code which is in no known trace still is
compiled code. -/
def resolveFrame (space : AddressSpace) (raw : RawFrame) : Frame :=
  let frame := space.lookup raw.address
  match raw.kind, frame.library with
  | .jitted, none =>
      { name := "jit:" ++ Text.hex raw.address.toNat
        address := raw.address
        library := some space.jitNumber
        isVirtual := false }
  | _, _ => frame

/-- Resolve the stack of a sample. -/
def resolveStack (space : AddressSpace) (sample : Sample) : List Frame :=
  sample.frames.map space.resolveFrame

/-- Resolve the stack of a sample and keep the interpreter level functions, or
all frames. -/
def filterStack (space : AddressSpace) (sample : Sample) (onlyVirtual : Bool) : List Frame :=
  (space.resolveStack sample).filter fun frame => !onlyVirtual || frame.isVirtual

end AddressSpace
end RuntimeLog
