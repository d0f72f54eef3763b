import RuntimeLog.Header
import RuntimeLog.Trace.Anomaly
import RuntimeLog.Trace.Basic
import RuntimeLog.Trace.CodePatch
import RuntimeLog.Trace.SourceCache

/-!
# Forests of traces

The traces of a log, how they are linked, and the indexes by which later records
refer to earlier ones.  The source lines which merge points name can be filled in from
files, as far as the log did not carry them itself.
-/

namespace RuntimeLog

/-- Names of opcodes by number. -/
abbrev OpcodeNames : Type := Std.ExtTreeMap UInt16 String compare

/-- Everything which a log tells about traces. -/
structure Forest where
  header : Header
  /-- The traces in the order in which they were started. -/
  traces : Journal Trace
  /-- The trace which was started last. -/
  current : Option UInt64
  opcodes : Option OpcodeNames
  /-- The traces by the start of their machine code. -/
  byStart : AddressMap UInt64
  /-- The points for which descriptors were registered first. -/
  descriptorPoints : AddressMap TracePoint
  /-- The first label operation of every descriptor. -/
  labels : AddressMap TracePoint
  /-- The first jump operation of every descriptor. -/
  jumps : AddressMap TracePoint
  /-- The counter operation behind the operation of a descriptor. -/
  counterPoints : AddressMap TracePoint
  patches : Journal CodePatch
  sourceCache : SourceCache
  /-- The number of decoded records. -/
  time : Nat
  /-- The offset behind the last decoded record. -/
  decodedUntil : Nat
  anomalies : Journal Anomaly
  fault : Option Fault

namespace Forest

/-- The forest without traces. -/
def start (header : Header) : Forest :=
  { header
    traces := .empty
    current := none
    opcodes := none
    byStart := ∅
    descriptorPoints := ∅
    labels := ∅
    jumps := ∅
    counterPoints := ∅
    patches := .empty
    sourceCache := .empty
    time := 0
    decodedUntil := 0
    anomalies := .empty
    fault := none }

/-- The trace with an id. -/
def trace? (forest : Forest) (id : UInt64) : Option Trace :=
  forest.traces.find? fun trace => trace.id == id

/-- The trace whose machine code was registered last at a start address. -/
def traceAtStart? (forest : Forest) (address : UInt64) : Option Trace :=
  forest.byStart[address]?.bind forest.trace?

/-- The trace whose machine code contains an address, as far as the nearest
start below it tells. -/
def traceContaining? (forest : Forest) (address : UInt64) : Option Trace :=
  ((AddressMap.floor? forest.byStart address).bind fun entry => forest.trace? entry.2).filter
    fun trace => trace.contains address

/-- The trace which a trace is attached to. -/
def parent? (forest : Forest) (trace : Trace) : Option Trace :=
  trace.parent?.bind forest.trace?

/-- The name of an opcode. -/
def opcodeName? (forest : Forest) (opcode : UInt16) : Option String :=
  forest.opcodes.bind fun names => names[opcode]?

/-- The bounds of all traces with machine code. -/
def allBounds (forest : Forest) : List (UInt64 × UInt64) :=
  forest.traces.toList.filterMap Trace.bounds

/-- The lowest start and the highest end of machine code. -/
def codeBounds? (forest : Forest) : Option (UInt64 × UInt64) :=
  match (forest.allBounds.map Prod.fst).min?, (forest.allBounds.map Prod.snd).max? with
  | some start, some finish => some (start, finish)
  | _, _ => none

/-- The machine code of an operation as it was at some time. -/
def codeAt? (forest : Forest) (trace : UInt64) (ref : OpRef) (time : Nat) : Option Bytes := do
  let trace ← forest.trace? trace
  let (start, finish) ← trace.bounds
  let operation ← trace.operation? ref
  let code ← operation.code
  if start.toNat + code.offset.toNat < UInt64.size then
    some
      (CodePatch.applyAll code.bytes (start + code.offset.toUInt64) start finish
        forest.patches.toList time)
  else none

/-! ## Source lines from files -/

/-- The files and lines of all merge points, trace by trace. -/
def referencedLines (forest : Forest) : List (String × UInt64) :=
  forest.traces.toList.flatMap fun trace =>
    trace.sourceLines.toList.flatMap fun entry => entry.2.toList.map fun line => (entry.1, line)

/-- Store a line from the files, unless its number is too large for a record or
it is stored already.  The count says how many lines were stored. -/
def extractLine (files : SourceFiles) (cache : SourceCache × Nat) (file : String)
    (line : UInt64) : SourceCache × Nat :=
  if line.toNat < UInt16.size then
    let line := line.toUInt16
    match cache.1.get? file line, files.line? file line with
    | none, some raw => (cache.1.insert file line (.ofRaw raw), cache.2 + 1)
    | _, _ => cache
  else cache

/-- Store all lines which merge points name and the files have, and count
them. -/
def extractSources (forest : Forest) (files : SourceFiles) : Forest × Nat :=
  let (cache, count) := forest.referencedLines.foldl
    (fun cache entry => extractLine files cache entry.1 entry.2) (forest.sourceCache, 0)
  ({ forest with sourceCache := cache }, count)

end Forest
end RuntimeLog
