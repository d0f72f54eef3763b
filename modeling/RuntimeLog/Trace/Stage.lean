import RuntimeLog.Journal
import RuntimeLog.Trace.Operation
import RuntimeLog.Trace.Point

/-!
# Stages

A stage keeps its operations in one list and its merge points in another one, both
numbered from zero on.  In which order they were logged is told by a list of references
to them.
-/

namespace RuntimeLog

/-- Where an entry of a stage is: among its operations or among its merge points. -/
inductive EntryRef where
  | operation (index : Nat)
  | mergePoint (index : Nat)
deriving DecidableEq, Repr

/-- Whether an entry can be where a reference says, for some numbers of operations and
merge points. -/
def EntryRef.InBounds (operations mergePoints : Nat) : EntryRef → Prop
  | operation index => index < operations
  | mergePoint index => index < mergePoints

/-- The entry to which a reference refers. -/
def EntryRef.entry (operations : Array Operation) (mergePoints : Array MergePoint) :
    (ref : EntryRef) → ref.InBounds operations.size mergePoints.size → StageEntry
  | operation index, inBounds =>
      have inside : index < operations.size := inBounds
      .operation operations[index]
  | mergePoint index, inBounds =>
      have inside : index < mergePoints.size := inBounds
      .mergePoint mergePoints[index]

/-- References by which operations and merge points were logged, one after the other.  All
lists are newest first. -/
inductive Interleaved : List EntryRef → List Operation → List MergePoint → Prop
  | empty : Interleaved [] [] []
  | operation
      {order : List EntryRef}
      {operations : List Operation}
      {mergePoints : List MergePoint}
      {operation : Operation}
      {index : Nat}
      (earlier : Interleaved order operations mergePoints)
      (next : index = operations.length)
      (numbered : operation.index = index) :
      Interleaved (.operation index :: order) (operation :: operations) mergePoints
  | mergePoint
      {order : List EntryRef}
      {operations : List Operation}
      {mergePoints : List MergePoint}
      {point : MergePoint}
      {index : Nat}
      (earlier : Interleaved order operations mergePoints)
      (next : index = mergePoints.length)
      (numbered : point.index = index) :
      Interleaved (.mergePoint index :: order) operations (point :: mergePoints)

namespace Interleaved

variable {order : List EntryRef} {operations : List Operation} {mergePoints : List MergePoint}

/-- No reference is out of bounds. -/
theorem inBounds
    (interleaved : Interleaved order operations mergePoints)
    {ref : EntryRef}
    (member : ref ∈ order) :
    ref.InBounds operations.length mergePoints.length := by
  induction interleaved with
  | empty => cases member
  | operation earlier next numbered inductionHypothesis =>
      rcases List.mem_cons.mp member with rfl | member
      · exact Nat.lt_succ_of_le (Nat.le_of_eq next)
      · cases ref with
        | operation index => exact Nat.lt_succ_of_lt (inductionHypothesis member)
        | mergePoint index => exact inductionHypothesis member
  | mergePoint earlier next numbered inductionHypothesis =>
      rcases List.mem_cons.mp member with rfl | member
      · exact Nat.lt_succ_of_le (Nat.le_of_eq next)
      · cases ref with
        | operation index => exact inductionHypothesis member
        | mergePoint index => exact Nat.lt_succ_of_lt (inductionHypothesis member)

/-- The newest operation is numbered by those before it. -/
theorem index_operation
    {operation : Operation}
    (interleaved : Interleaved order (operation :: operations) mergePoints) :
    operation.index = operations.length := by
  generalize whole : operation :: operations = all at interleaved
  induction interleaved with
  | empty => cases whole
  | operation earlier next numbered =>
      cases whole
      exact numbered.trans next
  | mergePoint earlier next numbered inductionHypothesis => exact inductionHypothesis whole

/-- The newest merge point is numbered by those before it. -/
theorem index_mergePoint
    {point : MergePoint}
    (interleaved : Interleaved order operations (point :: mergePoints)) :
    point.index = mergePoints.length := by
  generalize whole : point :: mergePoints = all at interleaved
  induction interleaved with
  | empty => cases whole
  | operation earlier next numbered inductionHypothesis => exact inductionHypothesis whole
  | mergePoint earlier next numbered =>
      cases whole
      exact numbered.trans next

/-- The newest operation can be changed as long as it keeps its number. -/
theorem modifyNewest
    {change : Operation → Operation}
    (interleaved : Interleaved order operations mergePoints)
    (same : ∀ operation, (change operation).index = operation.index) :
    Interleaved order (Journal.modifyNewestFirst (fun _ => true) change operations)
      mergePoints := by
  induction interleaved with
  | empty => exact .empty
  | operation earlier next numbered => exact .operation earlier next ((same _).trans numbered)
  | mergePoint earlier next numbered inductionHypothesis =>
      exact .mergePoint inductionHypothesis next numbered

end Interleaved

/-- What was logged about a trace in one stage. -/
structure Stage where
  kind : StageKind
  operationJournal : Journal Operation
  mergePointJournal : Journal MergePoint
  /-- References to all operations and merge points. -/
  order : Journal EntryRef
  interleaved :
    Interleaved order.newestFirst operationJournal.newestFirst mergePointJournal.newestFirst
  /-- The fields of the merge points, once they are declared. -/
  layout : Option (List MergeField)

namespace Stage

/-- A stage in which nothing was logged. -/
def empty (kind : StageKind) : Stage :=
  { kind
    operationJournal := .empty
    mergePointJournal := .empty
    order := .empty
    interleaved := .empty
    layout := none }

/-- The operations of a stage. -/
def operations (stage : Stage) : List Operation :=
  stage.operationJournal.toList

/-- The merge points of a stage. -/
def mergePoints (stage : Stage) : List MergePoint :=
  stage.mergePointJournal.toList

theorem inBounds_of_mem
    (stage : Stage)
    (ref : EntryRef)
    (member : ref ∈ stage.order.newestFirst) :
    ref.InBounds stage.operations.toArray.size stage.mergePoints.toArray.size := by
  rw [List.size_toArray, List.size_toArray, operations, mergePoints, Journal.length_toList,
    Journal.length_toList]
  exact stage.interleaved.inBounds member

/-- The operations and merge points of a stage, in the order in which they were logged. -/
def entries (stage : Stage) : Journal StageEntry :=
  ⟨stage.order.newestFirst.pmap
    (EntryRef.entry stage.operations.toArray stage.mergePoints.toArray) stage.inBounds_of_mem⟩

/-- The number of entries. -/
def size (stage : Stage) : Nat :=
  stage.order.size

/-- Whether nothing was logged. -/
def isEmpty (stage : Stage) : Bool :=
  stage.order.isEmpty

/-- The operation with a number. -/
def operation? (stage : Stage) (index : Nat) : Option Operation :=
  stage.operations[index]?

/-- The last operation. -/
def lastOperation? (stage : Stage) : Option Operation :=
  stage.operationJournal.newestFirst.head?

/-- The last merge point. -/
def lastMergePoint? (stage : Stage) : Option MergePoint :=
  stage.mergePointJournal.newestFirst.head?

/-- The number which the next operation gets. -/
def nextIndex (stage : Stage) : Nat :=
  match stage.lastOperation? with
  | some operation => operation.index + 1
  | none => 0

/-- The number which the next merge point gets. -/
def nextMergePointIndex (stage : Stage) : Nat :=
  match stage.lastMergePoint? with
  | some point => point.index + 1
  | none => 0

/-- The next operation is numbered by those which are there. -/
theorem nextIndex_eq (stage : Stage) : stage.nextIndex = stage.operationJournal.size := by
  have interleaved := stage.interleaved
  unfold nextIndex lastOperation? Journal.size
  cases known : stage.operationJournal.newestFirst with
  | nil => rfl
  | cons operation operations =>
      rw [known] at interleaved
      exact congrArg Nat.succ interleaved.index_operation

/-- The next merge point is numbered by those which are there. -/
theorem nextMergePointIndex_eq (stage : Stage) :
    stage.nextMergePointIndex = stage.mergePointJournal.size := by
  have interleaved := stage.interleaved
  unfold nextMergePointIndex lastMergePoint? Journal.size
  cases known : stage.mergePointJournal.newestFirst with
  | nil => rfl
  | cons point mergePoints =>
      rw [known] at interleaved
      exact congrArg Nat.succ interleaved.index_mergePoint

/-- Append an operation; it is numbered here. -/
def pushOperation (stage : Stage) (operation : Operation) : Stage :=
  { stage with
    operationJournal := stage.operationJournal.push { operation with index := stage.nextIndex }
    order := stage.order.push (.operation stage.nextIndex)
    interleaved := .operation stage.interleaved stage.nextIndex_eq rfl }

/-- Append a merge point; it is numbered here. -/
def pushMergePoint (stage : Stage) (values : FieldValues) : Stage :=
  { stage with
    mergePointJournal := stage.mergePointJournal.push { index := stage.nextMergePointIndex, values }
    order := stage.order.push (.mergePoint stage.nextMergePointIndex)
    interleaved := .mergePoint stage.interleaved stage.nextMergePointIndex_eq rfl }

/-- Attach machine code to the last operation. -/
def attachCode (stage : Stage) (code : CodeSnippet) : Stage :=
  { stage with
    operationJournal := stage.operationJournal.modify (fun _ => true) fun operation =>
      { operation with code := some code }
    interleaved := stage.interleaved.modifyNewest fun _ => rfl }

end Stage
end RuntimeLog
