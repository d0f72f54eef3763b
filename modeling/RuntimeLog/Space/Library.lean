import RuntimeLog.Forest.Basic
import RuntimeLog.Space.LibraryKind

/-!
# Libraries

A library is a range of addresses with symbols in it.  Besides mapped files
there are pseudo-libraries for compiled traces and for the names which a profile
declares.
-/

namespace RuntimeLog

/-- A named address. -/
structure Symbol where
  address : UInt64
  /-- The address behind the symbol, if it is known. -/
  finish : Option UInt64
  name : String
deriving DecidableEq, Repr

/-- Whether a symbol reaches up to an address which is not below it. -/
def Symbol.reaches (symbol : Symbol) (address : UInt64) : Bool :=
  match symbol.finish with
  | some finish => address < finish
  | none => true

/-- A range of addresses with symbols. -/
structure Library where
  name : String
  start : UInt64
  /-- The address behind the range. -/
  finish : UInt64
  /-- Whether the addresses stand for interpreter level functions. -/
  isVirtual : Bool
  kind : LibraryKind
  /-- The symbols in the order of their addresses. -/
  symbols : List Symbol
  /-- Whether only the addresses of symbols belong to the library. -/
  exact : Bool
deriving DecidableEq, Repr

namespace Library

/-- A library without symbols. -/
def ofRange (name : String) (start finish : UInt64) : Library :=
  let kind := LibraryKind.ofPath name
  { name
    start
    finish
    isVirtual := kind = .virtual
    kind
    symbols := []
    exact := false }

/-- Order symbols by address; those of one address keep their order. -/
def sortSymbols (symbols : List Symbol) : List Symbol :=
  symbols.mergeSort fun left right => left.address ≤ right.address

/-- Say whether the addresses of a library stand for interpreter level
functions. -/
def withVirtual (library : Library) (isVirtual : Bool) : Library :=
  { library with isVirtual }

/-- Add symbols whose ends are not known. -/
def withSymbols (library : Library) (symbols : List (UInt64 × String)) : Library :=
  let added : List Symbol :=
    symbols.map fun entry => { address := entry.1, finish := none, name := entry.2 }
  { library with symbols := sortSymbols (library.symbols ++ added) }

/-- The symbol of a trace with machine code. -/
def traceSymbol? (trace : Trace) : Option Symbol :=
  trace.bounds.map fun bounds =>
    { address := bounds.1
      finish := some bounds.2
      name := "jit:" ++ trace.kind.name ++ "#" ++ Text.hex trace.id.toNat }

/-- The pseudo-library of all traces with machine code. -/
def ofForest (forest : Forest) : Library :=
  let (start, finish) := forest.codeBounds?.getD (0, 0)
  { ofRange LibraryKind.jitName start finish with
    symbols := sortSymbols (forest.traces.toList.filterMap traceSymbol?) }

/-- The address behind the given one; the greatest address is its own
successor. -/
def successor (address : UInt64) : UInt64 :=
  if address.toNat + 1 < UInt64.size then address + 1 else address

/-- A library which reaches from the first to the last of some names. -/
def ofNames? (name : String) (names : AddressMap String) : Option Library :=
  match AddressMap.least? names, AddressMap.greatest? names with
  | some first, some last =>
      some ((ofRange name first (successor last)).withSymbols names.toList)
  | _, _ => none

/-- The pseudo-library of interpreter level functions.  Their addresses only
stand for names, so an address between two of them belongs to neither. -/
def ofVirtualNames? (names : AddressMap String) : Option Library :=
  (ofNames? LibraryKind.virtualName names).map fun library => { library with exact := true }

/-- The pseudo-library of declared native symbols. -/
def ofNativeNames? (names : AddressMap String) : Option Library :=
  ofNames? LibraryKind.nativeName names

/-- Whether an address is in the range of a library. -/
def contains (library : Library) (address : UInt64) : Bool :=
  library.start ≤ address && address < library.finish

/-- The last symbol at or below an address, if it reaches up to there. -/
def symbolFor? (library : Library) (address : UInt64) : Option Symbol :=
  ((library.symbols.takeWhile fun symbol => symbol.address ≤ address).getLast?).filter
    fun symbol => symbol.reaches address

/-- The first symbol of exactly an address. -/
def exactSymbol? (library : Library) (address : UInt64) : Option Symbol :=
  library.symbols.find? fun symbol => symbol.address == address

end Library
end RuntimeLog
