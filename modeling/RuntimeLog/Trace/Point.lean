import Std.Data.ExtTreeMap

/-!
# Points in traces

A trace is compiled in stages, each with operations of its own.  A point is the
entry of a trace or one of its operations, and a link is a control transfer from
one point to another.
-/

namespace RuntimeLog

/-- A stage of the compilation of a trace. -/
inductive StageKind where
  /-- The operations as they were recorded. -/
  | noopt
  /-- The operations behind the optimizer. -/
  | opt
  /-- The operations handed to the assembler, with machine code. -/
  | asm
deriving DecidableEq, Repr

namespace StageKind

/-- The short name of a stage. -/
def name : StageKind → String
  | noopt => "noopt"
  | opt => "opt"
  | asm => "asm"

/-- The name of a stage inside the description of a point. -/
def label : StageKind → String
  | noopt => "NoOpt"
  | opt => "Opt"
  | asm => "Asm"

/-- The place of a stage in the order of compilation. -/
def rank : StageKind → Nat
  | noopt => 0
  | opt => 1
  | asm => 2

theorem rank_injective {left right : StageKind} (same : left.rank = right.rank) :
    left = right := by
  cases left <;> cases right <;> first | rfl | cases same

end StageKind

/-- An operation within a trace. -/
structure OpRef where
  stage : StageKind
  /-- The number of operations before it in its stage. -/
  index : Nat
deriving DecidableEq, Repr

/-- Operations are ordered by stage, then by index. -/
instance : Ord OpRef :=
  ⟨compareLex (compareOn fun ref => ref.stage.rank) (compareOn fun ref => ref.index)⟩

instance : Std.TransCmp (α := OpRef) compare :=
  inferInstanceAs
    (Std.TransCmp
      (compareLex (compareOn fun ref : OpRef => ref.stage.rank) (compareOn fun ref => ref.index)))

instance : Std.LawfulEqCmp (α := OpRef) compare where
  compare_self {ref} := Std.ReflCmp.compare_self
  eq_of_compare {left right} same := by
    have both : (compareOn (fun ref : OpRef => ref.stage.rank) left right).then
        (compareOn (fun ref : OpRef => ref.index) left right) = .eq := same
    obtain ⟨stages, indexes⟩ := Ordering.then_eq_eq.mp both
    cases left
    cases right
    have sameStage := StageKind.rank_injective (Nat.compare_eq_eq.mp stages)
    have sameIndex := Nat.compare_eq_eq.mp indexes
    simp_all

/-- A trace as a whole, or an operation within it. -/
structure TracePoint where
  trace : UInt64
  /-- The operation; without one the point is the entry of the trace. -/
  operation : Option OpRef
deriving DecidableEq, Repr

namespace TracePoint

/-- The entry of a trace. -/
def entry (trace : UInt64) : TracePoint :=
  { trace, operation := none }

/-- The description of a point in messages. -/
def description (point : TracePoint) : String :=
  let operation :=
    match point.operation with
    | none => "None"
    | some ref =>
        "Some(OpRef \x7b stage: " ++ ref.stage.label ++ ", index: " ++ toString ref.index ++
          " \x7d)"
  "PointInTrace \x7b trace: " ++ toString point.trace ++ ", op: " ++ operation ++ " \x7d"

end TracePoint

/-- A control transfer from a point to another trace. -/
structure TraceLink where
  origin : TracePoint
  target : TracePoint
deriving DecidableEq, Repr

end RuntimeLog
