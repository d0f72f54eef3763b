import Mathlib.Data.List.Basic
import RuntimeLog.Trace.Stage

/-!
# Entries of stages

The references of a stage put its operations and its merge points back into the order in
which they were logged.  So what is logged is appended to the entries, and machine code is
attached to the newest of them which is an operation.
-/

namespace RuntimeLog

/-- The entry to which a reference refers, if it is there. -/
def EntryRef.entry? (operations : List Operation) (mergePoints : List MergePoint) :
    EntryRef → Option StageEntry
  | operation index => operations[index]?.map .operation
  | mergePoint index => mergePoints[index]?.map .mergePoint

/-- References which are not out of bounds refer to the same entries when others are
appended. -/
theorem EntryRef.entry?_append
    {ref : EntryRef}
    {operations : List Operation}
    {mergePoints : List MergePoint}
    (inBounds : ref.InBounds operations.length mergePoints.length)
    (moreOperations : List Operation)
    (moreMergePoints : List MergePoint) :
    ref.entry? (operations ++ moreOperations) (mergePoints ++ moreMergePoints) =
      ref.entry? operations mergePoints := by
  cases ref with
  | operation index => rw [EntryRef.entry?, List.getElem?_append_left inBounds, EntryRef.entry?]
  | mergePoint index => rw [EntryRef.entry?, List.getElem?_append_left inBounds, EntryRef.entry?]

/-- The entries to which references refer, taken off the operations and the merge points one
after the other.  All lists are newest first. -/
def weave : List EntryRef → List Operation → List MergePoint → List StageEntry
  | .operation _ :: order, operation :: operations, mergePoints =>
      .operation operation :: weave order operations mergePoints
  | .mergePoint _ :: order, operations, point :: mergePoints =>
      .mergePoint point :: weave order operations mergePoints
  | _, _, _ => []

/-- Attach machine code to an entry which is an operation. -/
def StageEntry.attachCode (code : CodeSnippet) : StageEntry → StageEntry
  | operation known => .operation { known with code := some code }
  | mergePoint point => .mergePoint point

namespace Interleaved

variable {order : List EntryRef} {operations : List Operation} {mergePoints : List MergePoint}

/-- The references refer to what is taken off the lists. -/
theorem map_entry?
    (interleaved : Interleaved order operations mergePoints) :
    order.map (EntryRef.entry? operations.reverse mergePoints.reverse) =
      (weave order operations mergePoints).map some := by
  induction interleaved with
  | empty => rfl
  | @operation order operations mergePoints newest index earlier next numbered
      inductionHypothesis =>
      -- the older references are in bounds, so that they do not see the newest operation
      have older : order.map (EntryRef.entry? (operations.reverse ++ [newest]) mergePoints.reverse) =
          order.map (EntryRef.entry? operations.reverse mergePoints.reverse) := by
        refine List.map_congr_left fun ref member => ?_
        have inBounds := earlier.inBounds member
        rw [← List.length_reverse, ← @List.length_reverse _ mergePoints] at inBounds
        simpa using EntryRef.entry?_append inBounds [newest] []
      rw [List.map_cons, List.reverse_cons, older, inductionHypothesis, weave, List.map_cons,
        EntryRef.entry?, next, ← List.length_reverse, List.getElem?_concat_length]
      rfl
  | @mergePoint order operations mergePoints newest index earlier next numbered
      inductionHypothesis =>
      have older : order.map (EntryRef.entry? operations.reverse (mergePoints.reverse ++ [newest])) =
          order.map (EntryRef.entry? operations.reverse mergePoints.reverse) := by
        refine List.map_congr_left fun ref member => ?_
        have inBounds := earlier.inBounds member
        rw [← List.length_reverse, ← @List.length_reverse _ mergePoints] at inBounds
        simpa using EntryRef.entry?_append inBounds [] [newest]
      rw [List.map_cons, List.reverse_cons, older, inductionHypothesis, weave, List.map_cons,
        EntryRef.entry?, next, ← List.length_reverse, List.getElem?_concat_length]
      rfl

theorem filterMap_operation?_weave (interleaved : Interleaved order operations mergePoints) :
    (weave order operations mergePoints).filterMap StageEntry.operation? = operations := by
  induction interleaved with
  | empty => rfl
  | operation earlier next numbered inductionHypothesis =>
      exact congrArg (List.cons _) inductionHypothesis
  | mergePoint earlier next numbered inductionHypothesis => exact inductionHypothesis

theorem filterMap_mergePoint?_weave (interleaved : Interleaved order operations mergePoints) :
    (weave order operations mergePoints).filterMap StageEntry.mergePoint? = mergePoints := by
  induction interleaved with
  | empty => rfl
  | operation earlier next numbered inductionHypothesis => exact inductionHypothesis
  | mergePoint earlier next numbered inductionHypothesis =>
      exact congrArg (List.cons _) inductionHypothesis

theorem length_weave (interleaved : Interleaved order operations mergePoints) :
    (weave order operations mergePoints).length = order.length := by
  have lengths := congrArg List.length interleaved.map_entry?
  rw [List.length_map, List.length_map] at lengths
  exact lengths.symm

/-- The newest operation is the newest entry which is one. -/
theorem weave_modifyNewest
    (interleaved : Interleaved order operations mergePoints)
    (code : CodeSnippet) :
    weave order
        (Journal.modifyNewestFirst (fun _ => true)
          (fun operation => { operation with code := some code }) operations)
        mergePoints =
      Journal.modifyNewestFirst (fun entry => entry.operation?.isSome)
        (StageEntry.attachCode code) (weave order operations mergePoints) := by
  induction interleaved with
  | empty => rfl
  | operation earlier next numbered =>
      have passes (operation : Operation) :
          (StageEntry.operation operation).operation?.isSome := rfl
      rw [Journal.modifyNewestFirst, if_pos rfl, weave, weave, Journal.modifyNewestFirst,
        if_pos (passes _)]
      rfl
  | mergePoint earlier next numbered inductionHypothesis =>
      have unlike (point : MergePoint) :
          ¬ (StageEntry.mergePoint point).operation?.isSome := Bool.false_ne_true
      rw [weave, weave, Journal.modifyNewestFirst, if_neg (unlike _), inductionHypothesis]

/-- Operations are numbered from zero on. -/
theorem index_operations (interleaved : Interleaved order operations mergePoints) :
    operations.reverse.map Operation.index = List.range operations.length := by
  induction interleaved with
  | empty => rfl
  | operation earlier next numbered inductionHypothesis =>
      rw [List.reverse_cons, List.map_append, inductionHypothesis, List.length_cons,
        List.range_succ, List.map_singleton, numbered, next]
  | mergePoint earlier next numbered inductionHypothesis => exact inductionHypothesis

/-- Merge points are numbered from zero on. -/
theorem index_mergePoints (interleaved : Interleaved order operations mergePoints) :
    mergePoints.reverse.map MergePoint.index = List.range mergePoints.length := by
  induction interleaved with
  | empty => rfl
  | operation earlier next numbered inductionHypothesis => exact inductionHypothesis
  | mergePoint earlier next numbered inductionHypothesis =>
      rw [List.reverse_cons, List.map_append, inductionHypothesis, List.length_cons,
        List.range_succ, List.map_singleton, numbered, next]

end Interleaved

namespace Stage

/-- Every reference of a stage refers to an entry, which is the one at its place. -/
theorem map_entry?_order (stage : Stage) :
    stage.order.newestFirst.map (EntryRef.entry? stage.operations stage.mergePoints) =
      stage.entries.newestFirst.map some := by
  rw [entries, List.map_pmap]
  symm
  rw [← List.pmap_eq_map (H := stage.inBounds_of_mem)]
  refine List.pmap_congr_left _ fun ref member inBounds _ => ?_
  cases ref with
  | operation index =>
      have inside : index < stage.operations.length := inBounds
      rw [EntryRef.entry?, List.getElem?_eq_getElem inside]
      rfl
  | mergePoint index =>
      have inside : index < stage.mergePoints.length := inBounds
      rw [EntryRef.entry?, List.getElem?_eq_getElem inside]
      rfl

/-- The entries of a stage are taken off its operations and its merge points. -/
theorem entries_eq (stage : Stage) :
    stage.entries =
      ⟨weave stage.order.newestFirst stage.operationJournal.newestFirst
        stage.mergePointJournal.newestFirst⟩ := by
  have same := stage.map_entry?_order.symm.trans stage.interleaved.map_entry?
  exact congrArg Journal.mk (List.map_injective_iff.mpr (fun _ _ => Option.some.inj) same)

/-- The operations of a stage are its entries which are operations. -/
theorem operations_eq (stage : Stage) :
    stage.operations = stage.entries.toList.filterMap StageEntry.operation? := by
  rw [Journal.toList, entries_eq, List.filterMap_reverse,
    stage.interleaved.filterMap_operation?_weave]
  rfl

/-- The merge points of a stage are its entries which are merge points. -/
theorem mergePoints_eq (stage : Stage) :
    stage.mergePoints = stage.entries.toList.filterMap StageEntry.mergePoint? := by
  rw [Journal.toList, entries_eq, List.filterMap_reverse,
    stage.interleaved.filterMap_mergePoint?_weave]
  rfl

/-- The last operation is the newest entry which is one. -/
theorem lastOperation?_eq_findSome? (stage : Stage) :
    stage.lastOperation? = stage.entries.newestFirst.findSome? StageEntry.operation? := by
  rw [← List.head?_filterMap, entries_eq, stage.interleaved.filterMap_operation?_weave]
  rfl

theorem size_eq (stage : Stage) : stage.size = stage.entries.toList.length := by
  rw [Journal.length_toList, Journal.size, entries_eq, stage.interleaved.length_weave]
  rfl

/-! ## Logging -/

theorem entries_pushOperation (stage : Stage) (operation : Operation) :
    (stage.pushOperation operation).entries =
      stage.entries.push (.operation { operation with index := stage.nextIndex }) := by
  rw [entries_eq, entries_eq stage]
  rfl

theorem entries_pushMergePoint (stage : Stage) (values : FieldValues) :
    (stage.pushMergePoint values).entries =
      stage.entries.push (.mergePoint { index := stage.nextMergePointIndex, values }) := by
  rw [entries_eq, entries_eq stage]
  rfl

theorem entries_attachCode (stage : Stage) (code : CodeSnippet) :
    (stage.attachCode code).entries =
      stage.entries.modify (fun entry => entry.operation?.isSome) (StageEntry.attachCode code) := by
  rw [entries_eq, entries_eq stage, Journal.modify, ← stage.interleaved.weave_modifyNewest]
  rfl

end Stage
end RuntimeLog
