import Mathlib.Data.List.Basic
import RuntimeLog.Jitlog.Format

/-!
# Histories of trace logs

What a list of records tells, without a forest in which it is kept: which traces
were started, which operations were logged where, and which events the indexes
of a forest are about.
-/

namespace RuntimeLog
namespace Jitlog

/-! ## Single records -/

namespace Record

/-- The id of the trace which a record starts. -/
def started? : Record → Option UInt64
  | startTrace id _ _ _ => some id
  | _ => none

/-- The name which a record declares for an opcode.  The last declaration
counts. -/
def opcodeName? (opcode : UInt16) : Record → Option String
  | opcodes names => (names.reverse.find? fun entry => entry.1 == opcode).map Prod.snd
  | _ => none

/-- Whether a record is not about traces, operations or descriptors. -/
def isAside : Record → Bool
  | inputArguments _ | code _ | stitchBridge .. | counter .. | layout _ | mergePoint _
  | sharedStart .. | abortTrace _ | sourceLines .. | patch .. => true
  | _ => false

end Record

/-- An operation which was logged. -/
structure LoggedOperation where
  trace : UInt64
  stage : StageKind
  /-- The number of operations before it in its stage. -/
  index : Nat
  name : String
  /-- The number of its descriptor. -/
  descriptor : Option UInt64
deriving DecidableEq, Repr

namespace LoggedOperation

/-- The place of a logged operation. -/
def point (operation : LoggedOperation) : TracePoint :=
  { trace := operation.trace
    operation := some { stage := operation.stage, index := operation.index } }

/-- Whether an operation was logged in a stage of a trace. -/
def isIn (trace : UInt64) (stage : StageKind) (operation : LoggedOperation) : Bool :=
  operation.trace == trace && operation.stage == stage

/-- Whether an operation has a name and a descriptor. -/
def names (name : String) (descriptor : UInt64) (operation : LoggedOperation) : Bool :=
  operation.name == name && operation.descriptor == some descriptor

/-- The descriptor for which an operation is registered, and its place. -/
def registration? (operation : LoggedOperation) : Option (UInt64 × TracePoint) :=
  operation.descriptor.map fun descriptor => (descriptor, operation.point)

/-- The descriptor whose passes are counted by an operation, and its place: it is
the descriptor of the operation right before it in its stage. -/
def counting?
    (operation : LoggedOperation)
    (earlier : List LoggedOperation) : Option (UInt64 × TracePoint) :=
  if operation.name = Forest.counterName then
    ((earlier.filter (isIn operation.trace operation.stage)).getLast?.bind descriptor).map
      fun descriptor => (descriptor, operation.point)
  else none

/-- What an operation counts is counted at its place. -/
theorem snd_of_counting?
    {operation : LoggedOperation}
    {earlier : List LoggedOperation}
    {counting : UInt64 × TracePoint}
    (counted : operation.counting? earlier = some counting) :
    counting.2 = operation.point := by
  unfold LoggedOperation.counting? at counted
  split at counted
  · obtain ⟨descriptor, _, rfl⟩ := Option.map_eq_some_iff.mp counted
    rfl
  · cases counted

end LoggedOperation

/-- The records of a log, newest first. -/
abbrev History : Type := List Record

namespace History

/-! ## Traces -/

/-- The traces which were started, oldest first. -/
def started (history : History) : List UInt64 :=
  (history.filterMap Record.started?).reverse

/-- The trace which was started last. -/
def currentTrace (history : History) : Option UInt64 :=
  history.findSome? Record.started?

/-- The stage which was entered last in the trace which was started last. -/
def activeStage : History → Option StageKind
  | [] => none
  | .startTrace .. :: _ => none
  | .enterStage kind _ :: _ => some kind
  | _ :: earlier => activeStage earlier

/-- The first bounds which were logged for a trace. -/
def bounds? : History → UInt64 → Option (UInt64 × UInt64)
  | [], _ => none
  | .bounds start finish :: earlier, id =>
      (bounds? earlier id).or
        (if currentTrace earlier = some id then some (start, finish) else none)
  | _ :: earlier, id => bounds? earlier id

/-! ## Operations -/

/-- The name which was declared for an opcode. -/
def opcodeName? (history : History) (opcode : UInt16) : Option String :=
  history.findSome? (Record.opcodeName? opcode)

/-- The operation which a record logs behind others. -/
def loggedBehind?
    (earlier : History)
    (logged : List LoggedOperation) : Record → Option LoggedOperation
  | .operation opcode _ _ descriptor => do
      let trace ← earlier.currentTrace
      let stage ← earlier.activeStage
      let name ← earlier.opcodeName? opcode
      return { trace, stage, index := logged.countP (LoggedOperation.isIn trace stage), name, descriptor }
  | _ => none

/-- The operations which were logged, oldest first. -/
def operations : History → List LoggedOperation
  | [] => []
  | record :: earlier =>
      operations earlier ++ (loggedBehind? earlier (operations earlier) record).toList

/-- The operation which a record logs behind a history. -/
def logged? (earlier : History) (record : Record) : Option LoggedOperation :=
  earlier.loggedBehind? earlier.operations record

/-! ## Events -/

/-- The descriptor for which a record registers a point behind others: that of an
operation, or the one to which another descriptor is redirected, with the point
of the other one. -/
def registeredBehind?
    (earlier : History)
    (known : List (UInt64 × TracePoint)) : Record → Option (UInt64 × TracePoint)
  | .redirect before after _ => (known.lookup before).map fun point => (after, point)
  | record => (logged? earlier record).bind LoggedOperation.registration?

/-- The descriptors for which points were registered, oldest first. -/
def registrations : History → List (UInt64 × TracePoint)
  | [] => []
  | record :: earlier =>
      registrations earlier ++ (registeredBehind? earlier (registrations earlier) record).toList

/-- The descriptors whose passes are counted by operations, oldest first. -/
def countings : History → List (UInt64 × TracePoint)
  | [] => []
  | record :: earlier =>
      countings earlier ++
        ((logged? earlier record).bind fun operation =>
          operation.counting? (operations earlier)).toList

/-! ## One more record -/

variable {history : History} {record : Record}

@[simp] theorem operations_cons (record : Record) (history : History) :
    operations (record :: history) = history.operations ++ (history.logged? record).toList := rfl

@[simp] theorem countings_cons (record : Record) (history : History) :
    countings (record :: history) =
      history.countings ++
        ((history.logged? record).bind fun operation =>
          operation.counting? history.operations).toList := rfl

@[simp] theorem registrations_cons (record : Record) (history : History) :
    registrations (record :: history) =
      history.registrations ++
        (history.registeredBehind? history.registrations record).toList := rfl

/-- The trace which was started last is the last one of those which were
started. -/
theorem getLast?_started (history : History) : history.started.getLast? = history.currentTrace := by
  rw [started, List.getLast?_reverse, List.head?_filterMap]
  rfl

/-- An operation is logged in the active stage of the current trace. -/
theorem logged?_operation
    {opcode : UInt16}
    {name : String}
    {trace : UInt64}
    {stage : StageKind}
    (current : history.currentTrace = some trace)
    (active : history.activeStage = some stage)
    (named : history.opcodeName? opcode = some name)
    (arguments : String)
    (failArguments : Option String)
    (descriptor : Option UInt64) :
    history.logged? (.operation opcode arguments failArguments descriptor) =
      some
        { trace
          stage
          index := history.operations.countP (LoggedOperation.isIn trace stage)
          name
          descriptor } := by
  unfold logged? loggedBehind?
  dsimp only
  rw [current, active, named]
  rfl

/-- A logged operation gets the number of operations before it in its stage. -/
theorem index_of_logged?
    {operation : LoggedOperation}
    (logged : history.logged? record = some operation) :
    operation.index =
      history.operations.countP (LoggedOperation.isIn operation.trace operation.stage) := by
  unfold logged? loggedBehind? at logged
  split at logged
  · obtain ⟨trace, _, inTrace⟩ := Option.bind_eq_some_iff.mp logged
    obtain ⟨stage, _, inStage⟩ := Option.bind_eq_some_iff.mp inTrace
    obtain ⟨name, _, named⟩ := Option.bind_eq_some_iff.mp inStage
    cases named
    rfl
  · cases logged

/-! ## Places of operations -/

/-- The operations of a stage are numbered from zero on. -/
theorem index_operations (history : History) (trace : UInt64) (stage : StageKind) :
    (history.operations.filter (LoggedOperation.isIn trace stage)).map LoggedOperation.index =
      List.range (history.operations.countP (LoggedOperation.isIn trace stage)) := by
  induction history with
  | nil => rfl
  | cons record earlier inductionHypothesis =>
      rw [operations_cons, List.filter_append, List.map_append, List.countP_append,
        inductionHypothesis]
      cases logged : logged? earlier record with
      | none => simp
      | some operation =>
          by_cases inside : operation.isIn trace stage
          · have place := index_of_logged? logged
            obtain ⟨sameTrace, sameStage⟩ : operation.trace = trace ∧ operation.stage = stage := by
              simpa [LoggedOperation.isIn] using inside
            rw [sameTrace, sameStage] at place
            simp [inside, place, List.range_succ]
          · simp [inside]

/-- An operation of a stage has the number of its position among those which were
logged in the stage. -/
theorem getElem_index
    (history : History)
    {trace : UInt64}
    {stage : StageKind}
    {operation : LoggedOperation}
    (member : operation ∈ history.operations.filter (LoggedOperation.isIn trace stage)) :
    ∃ bound : operation.index <
        (history.operations.filter (LoggedOperation.isIn trace stage)).length,
      (history.operations.filter (LoggedOperation.isIn trace stage))[operation.index] =
        operation := by
  obtain ⟨position, bound, place⟩ := List.getElem_of_mem member
  have numbered := congrArg (fun indexes => indexes[position]?)
    (history.index_operations trace stage)
  rw [List.countP_eq_length_filter] at numbered
  have index : operation.index = position := by
    simpa [bound, place] using numbered
  subst index
  exact ⟨bound, place⟩

/-- A point is registered only for operations. -/
theorem mem_of_registrations
    {registration : UInt64 × TracePoint}
    (registered : registration ∈ history.registrations) :
    registration.2 ∈ history.operations.map LoggedOperation.point := by
  induction history generalizing registration with
  | nil => cases registered
  | cons record earlier inductionHypothesis =>
      rw [registrations_cons] at registered
      rw [operations_cons, List.map_append, List.mem_append]
      rcases List.mem_append.mp registered with known | new
      · exact Or.inl (inductionHypothesis known)
      · rw [Option.mem_toList] at new
        unfold registeredBehind? at new
        split at new
        · rename_i before after target
          obtain ⟨point, old, rfl⟩ := Option.map_eq_some_iff.mp new
          obtain ⟨first, rest, found, _⟩ := List.lookup_eq_some_iff.mp old
          have known : (before, point) ∈ registrations earlier := by
            rw [found]
            exact List.mem_append_right _ List.mem_cons_self
          have logged := inductionHypothesis known
          exact Or.inl logged
        · obtain ⟨operation, logged, registers⟩ := Option.bind_eq_some_iff.mp new
          obtain ⟨descriptor, _, rfl⟩ := Option.map_eq_some_iff.mp registers
          right
          rw [logged]
          exact List.mem_map_of_mem (by simp)

/-- Passes are counted only by operations. -/
theorem mem_of_countings
    {counting : UInt64 × TracePoint}
    (counted : counting ∈ history.countings) :
    counting.2 ∈ history.operations.map LoggedOperation.point := by
  induction history with
  | nil => cases counted
  | cons record earlier inductionHypothesis =>
      rw [countings_cons] at counted
      rw [operations_cons, List.map_append, List.mem_append]
      rcases List.mem_append.mp counted with known | new
      · exact Or.inl (inductionHypothesis known)
      · rw [Option.mem_toList] at new
        obtain ⟨operation, logged, counts⟩ := Option.bind_eq_some_iff.mp new
        right
        rw [logged, LoggedOperation.snd_of_counting? counts]
        exact List.mem_map_of_mem (by simp)

/-! ## Summaries -/

/-- What a history tells about traces, operations and descriptors. -/
structure Summary where
  started : List UInt64
  currentTrace : Option UInt64
  activeStage : Option StageKind
  bounds : UInt64 → Option (UInt64 × UInt64)
  opcodeName : UInt16 → Option String
  operations : List LoggedOperation
  registrations : List (UInt64 × TracePoint)
  countings : List (UInt64 × TracePoint)

namespace Summary

/-- The trace which was started last of those whose bounds begin at an address. -/
def traceAt? (summary : Summary) (address : UInt64) : Option UInt64 :=
  (summary.started.filter fun id => (summary.bounds id).map Prod.fst == some address).getLast?

/-- The place of the first operation with a name and a descriptor. -/
def firstNamed? (summary : Summary) (name : String) (descriptor : UInt64) : Option TracePoint :=
  (summary.operations.find? (LoggedOperation.names name descriptor)).map LoggedOperation.point

/-- The point for which a descriptor was registered first. -/
def registered? (summary : Summary) (descriptor : UInt64) : Option TracePoint :=
  summary.registrations.lookup descriptor

/-- The place of the last operation which counts the passes of a descriptor. -/
def counter? (summary : Summary) (descriptor : UInt64) : Option TracePoint :=
  ((summary.countings.filter fun counting => counting.1 == descriptor).getLast?).map Prod.snd

end Summary

/-- The summary of a history. -/
def summary (history : History) : Summary :=
  { started := history.started
    currentTrace := history.currentTrace
    activeStage := history.activeStage
    bounds := history.bounds?
    opcodeName := history.opcodeName?
    operations := history.operations
    registrations := history.registrations
    countings := history.countings }

/-- The first operation of a name is a logged one. -/
theorem mem_of_firstNamed?
    {name : String}
    {descriptor : UInt64}
    {point : TracePoint}
    (first : history.summary.firstNamed? name descriptor = some point) :
    point ∈ history.operations.map LoggedOperation.point := by
  obtain ⟨operation, found, rfl⟩ := Option.map_eq_some_iff.mp first
  exact List.mem_map_of_mem (List.mem_of_find?_eq_some found)

/-- The operation for which a descriptor is registered is a logged one. -/
theorem mem_of_registered?
    {descriptor : UInt64}
    {point : TracePoint}
    (registered : history.summary.registered? descriptor = some point) :
    point ∈ history.operations.map LoggedOperation.point := by
  obtain ⟨first, rest, split, _⟩ := List.lookup_eq_some_iff.mp registered
  have member : (descriptor, point) ∈ history.registrations := by
    rw [show history.registrations = _ from split]
    exact List.mem_append_right _ List.mem_cons_self
  exact mem_of_registrations member

/-- The operation which counts the passes of a descriptor is a logged one. -/
theorem mem_of_counter?
    {descriptor : UInt64}
    {point : TracePoint}
    (counter : history.summary.counter? descriptor = some point) :
    point ∈ history.operations.map LoggedOperation.point := by
  obtain ⟨counting, last, rfl⟩ := Option.map_eq_some_iff.mp counter
  exact mem_of_countings (List.mem_of_mem_filter (List.mem_of_getLast? last))

/-- A record which is not about traces, operations or descriptors does not change
the summary. -/
theorem summary_cons_of_isAside (aside : record.isAside) (history : History) :
    summary (record :: history) = history.summary := by
  cases record with
  | opcodes | operation | bounds | enterStage | startTrace | redirect => cases aside
  | _ =>
      simp only [summary, operations_cons, registrations_cons, countings_cons, logged?,
        loggedBehind?, registeredBehind?, Option.bind_none, Option.toList_none, List.append_nil]
      rfl

/-- A started trace is the current one, in which no stage is active. -/
theorem summary_startTrace
    (id attachedDescriptor : UInt64)
    (kind : String)
    (driver : Option String)
    (history : History) :
    summary (.startTrace id kind attachedDescriptor driver :: history) =
      { history.summary with
        started := history.started ++ [id]
        currentTrace := some id
        activeStage := none } := by
  simp only [summary, operations_cons, registrations_cons, countings_cons, logged?,
    loggedBehind?, registeredBehind?, Option.bind_none, Option.toList_none, List.append_nil]
  simp only [started, List.filterMap_cons, Record.started?, List.reverse_cons]
  rfl

/-- An entered stage is the active one. -/
theorem summary_enterStage (kind : StageKind) (id : UInt64) (history : History) :
    summary (.enterStage kind id :: history) =
      { history.summary with activeStage := some kind } := by
  simp only [summary, operations_cons, registrations_cons, countings_cons, logged?,
    loggedBehind?, registeredBehind?, Option.bind_none, Option.toList_none, List.append_nil]
  rfl

/-- Declared opcodes have names. -/
theorem summary_opcodes (names : List (UInt16 × String)) (history : History) :
    summary (.opcodes names :: history) =
      { history.summary with
        opcodeName := fun opcode =>
          ((names.reverse.find? fun entry => entry.1 == opcode).map Prod.snd).or
            (history.opcodeName? opcode) } := by
  simp only [summary, operations_cons, registrations_cons, countings_cons, logged?,
    loggedBehind?, registeredBehind?, Option.bind_none, Option.toList_none, List.append_nil]
  congr 1
  funext opcode
  unfold opcodeName?
  rw [List.findSome?_cons, Record.opcodeName?]
  split
  · rename_i name found
    rw [found]
    rfl
  · rename_i missing
    rw [missing]
    rfl

/-- Bounds are those of the current trace unless it had others before. -/
theorem summary_bounds (start finish : UInt64) (history : History) :
    summary (.bounds start finish :: history) =
      { history.summary with
        bounds := fun id =>
          (history.bounds? id).or
            (if history.currentTrace = some id then some (start, finish) else none) } := by
  simp only [summary, operations_cons, registrations_cons, countings_cons, logged?,
    loggedBehind?, registeredBehind?, Option.bind_none, Option.toList_none, List.append_nil]
  rfl

/-- A redirect registers a descriptor. -/
theorem summary_redirect (before after target : UInt64) (history : History) :
    summary (.redirect before after target :: history) =
      { history.summary with
        registrations :=
          history.registrations ++
            ((history.summary.registered? before).map fun point => (after, point)).toList } := by
  simp only [summary, operations_cons, registrations_cons, countings_cons, logged?,
    loggedBehind?, registeredBehind?, Option.bind_none, Option.toList_none, List.append_nil]
  rfl

/-- An operation is logged, registered for its descriptor, and counts the passes
of the operation before it if it is a counter. -/
theorem summary_operation
    {opcode : UInt16}
    {arguments : String}
    {failArguments : Option String}
    {descriptor : Option UInt64}
    {operation : LoggedOperation}
    (logged :
      history.logged? (.operation opcode arguments failArguments descriptor) = some operation) :
    summary (.operation opcode arguments failArguments descriptor :: history) =
      { history.summary with
        operations := history.operations ++ [operation]
        registrations := history.registrations ++ operation.registration?.toList
        countings := history.countings ++ (operation.counting? history.operations).toList } := by
  simp only [summary, operations_cons, registrations_cons, countings_cons, registeredBehind?,
    logged, Option.bind_some, Option.toList_some]
  rfl

end History
end Jitlog
end RuntimeLog
