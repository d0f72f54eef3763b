import RuntimeLog.Proofs.Forest.Ties
import RuntimeLog.Proofs.Forest.Tracking
import RuntimeLog.Stream.Zstd.Decoder

/-!
# Indexes of a forest

The indexes of a forest are determined by the records from which it grew, and
nothing in a forest refers to an operation which it does not have.
-/

namespace RuntimeLog
namespace Forest

open Jitlog (History LoggedOperation)

variable {past : History} {forest next : Forest} {trace : Trace}

/-! ## Points of operations -/

/-- A point which is an operation of a forest. -/
def Refers (forest : Forest) (point : TracePoint) : Prop :=
  ∃ ref trace stage operation,
    point.operation = some ref ∧
    forest.trace? point.trace = some trace ∧
    trace.stage? ref.stage = some stage ∧
    stage.operation? ref.index = some operation

/-- Every logged operation is one of the forest. -/
theorem Tracks.refers
    (tracks : Tracks past.summary forest.outline)
    {point : TracePoint}
    (logged : point ∈ past.operations.map LoggedOperation.point) :
    forest.Refers point := by
  obtain ⟨operation, member, rfl⟩ := List.mem_map.mp logged
  obtain ⟨trace, found⟩ := Option.isSome_iff_exists.mp (tracks.isSome_trace? member)
  have inside : operation ∈
      past.operations.filter (LoggedOperation.isIn operation.trace operation.stage) :=
    List.mem_filter.mpr ⟨member, by simp [LoggedOperation.isIn]⟩
  have logs := tracks.logged operation.trace operation.stage
  rw [show forest.outline.traces operation.trace = some trace.outline from
    congrArg (Option.map Trace.outline) found] at logs
  simp only [Option.elim_some, Trace.outline, Trace.logged] at logs
  rw [show past.summary.operations = past.operations from rfl] at logs
  cases stands : trace.stage? operation.stage with
  | none =>
      rw [stands] at logs
      rw [← logs] at inside
      cases inside
  | some stage =>
      rw [stands] at logs
      obtain ⟨bound, _⟩ := History.getElem_index past inside
      rw [← logs, Option.elim_some, Stage.logged, List.length_map] at bound
      exact ⟨_, trace, stage, _, rfl, found, stands, List.getElem?_eq_getElem bound⟩

/-! ## Anchors -/

/-- A forest in which links begin at logged operations, and logged operations are
counted. -/
structure Anchored (history : History) (forest : Forest) : Prop where
  links : ∀ id, ∀ link ∈ forest.linksOut id ++ forest.linksIn id,
    link.origin ∈ history.operations.map LoggedOperation.point
  counters : ∀ id, ∀ ref ∈ (forest.ties id).pointCounts,
    { trace := id, operation := some ref } ∈ history.operations.map LoggedOperation.point

/-- Nothing is anchored in a forest without traces. -/
theorem anchored_start (header : Header) : Anchored [] (start header) where
  links _ _ member := by cases member
  counters _ _ member := absurd member Std.ExtTreeMap.not_mem_empty

/-- What is credited is a trace or a logged operation. -/
theorem Tracks.mem_of_credited
    (tracks : Tracks past.summary forest.outline)
    {number id : UInt64}
    {kind : UInt8}
    {ref : OpRef}
    (credited : forest.creditedPoint? number kind =
      some { trace := id, operation := some ref }) :
    { trace := id, operation := some ref } ∈ past.operations.map LoggedOperation.point := by
  unfold creditedPoint? at credited
  split at credited
  · cases credited
  · have counted := (Option.filter_eq_some_iff.mp credited).1
    unfold countedPoint? at counted
    split at counted
    · exact History.mem_of_firstNamed? ((tracks.labels number).symm.trans counted)
    · split at counted
      · exact History.mem_of_counter? ((tracks.counters number).symm.trans counted)
      · split at counted
        · obtain ⟨origin, registered, same⟩ := Option.map_eq_some_iff.mp counted
          split at same
          · cases same
          · subst same
            exact tracks.mem_of_registered registered
        · cases counted

/-- Anchors stay if nothing new is tied to other points. -/
theorem Anchored.of_subset
    (anchored : Anchored past forest)
    (record : Jitlog.Record)
    (links : ∀ id, ∀ link ∈ next.linksOut id ++ next.linksIn id,
      link ∈ forest.linksOut id ++ forest.linksIn id ∨
        link.origin ∈ past.operations.map LoggedOperation.point)
    (counters : ∀ id, ∀ ref ∈ (next.ties id).pointCounts,
      ref ∈ (forest.ties id).pointCounts ∨
        { trace := id, operation := some ref } ∈ past.operations.map LoggedOperation.point) :
    Anchored (record :: past) next := by
  have stays {point : TracePoint} (logged : point ∈ past.operations.map LoggedOperation.point) :
      point ∈ (History.operations (record :: past)).map LoggedOperation.point := by
    rw [History.operations_cons, List.map_append]
    exact List.mem_append_left _ logged
  constructor
  case links =>
    intro id link member
    rcases links id link member with old | new
    · exact stays (anchored.links id link old)
    · exact stays new
  case counters =>
    intro id ref member
    rcases counters id ref member with old | new
    · exact stays (anchored.counters id ref old)
    · exact stays new

/-- Anchors are about the ties only. -/
theorem Anchored.congr (anchored : Anchored past forest) (same : next.ties = forest.ties) :
    Anchored past next where
  links id link member := by
    unfold linksOut linksIn at member
    rw [same] at member
    exact anchored.links id link member
  counters id ref member := by
    rw [same] at member
    exact anchored.counters id ref member

/-- Anchors stay while the ties do. -/
theorem Anchored.of_ties
    (anchored : Anchored past forest)
    (record : Jitlog.Record)
    (same : next.ties = forest.ties) :
    Anchored (record :: past) next :=
  (anchored.of_subset record (fun _ _ => Or.inl) (fun _ _ => Or.inl)).congr same

/-- A link out of a logged operation is anchored. -/
theorem Anchored.link
    (anchored : Anchored past forest)
    (record : Jitlog.Record)
    {origin : TracePoint}
    (logged : origin ∈ past.operations.map LoggedOperation.point)
    (target : TracePoint) :
    Anchored (record :: past) (forest.link origin target) := by
  apply anchored.of_subset record
  · intro id link member
    rcases mem_links_link member with old | rfl
    · exact Or.inl old
    · exact Or.inr logged
  · intro id ref member
    rw [pointCounts_link] at member
    exact Or.inl member

/-- Links which are dropped need no anchor. -/
theorem Anchored.unlink
    (anchored : Anchored past forest)
    (origin : TracePoint) :
    Anchored past (forest.unlink origin) := by
  constructor
  case links =>
    intro id link member
    unfold linksOut linksIn at member
    rw [ties_unlink] at member
    apply anchored.links id link
    rcases List.mem_append.mp member with leads | comes
    · exact List.mem_append_left _ (List.mem_of_mem_filter leads)
    · exact List.mem_append_right _ (List.mem_of_mem_filter comes)
  case counters =>
    intro id ref member
    rw [ties_unlink] at member
    exact anchored.counters id ref member

/-- A record anchors what it ties. -/
theorem Step.anchored
    {record : Jitlog.Record}
    (step : forest.Step record next)
    (tracks : Tracks past.summary forest.outline)
    (anchored : Anchored past forest) :
    Anchored (record :: past) next := by
  by_cases tying : record.isTying
  · cases step with
    | bridgeUnattached => exact anchored.of_ties _ rfl
    | stitchBridge assembled registered =>
        exact anchored.link _ (tracks.mem_of_registered registered) _
    | counter =>
        apply anchored.of_subset
        · intro id link member
          obtain ⟨out, into⟩ := links_addCounter forest _ _ _ id
          rw [out, into] at member
          exact Or.inl member
        · intro id ref member
          exact (mem_pointCounts_addCounter member).imp_right tracks.mem_of_credited
    | redirectIgnored => exact anchored.of_ties _ rfl
    | redirect known registered =>
        have logged := tracks.mem_of_registered registered
        split
        · exact (anchored.unlink _).link _ logged _
        · exact ((anchored.unlink _).link _ logged _).congr
            (ties_congr (traces_registerDescriptor _ _ _))
    | _ => cases tying
  · exact anchored.of_ties _ (step.ties_eq tying)

/-! ## Reached states -/

/-- In every state of a reader the ties of the traces are anchored. -/
theorem anchored_of_reached
    [Stream.Decompressor]
    {source : Stream.Source}
    {chunk : Nat}
    {history : History}
    {reader : LogReader Jitlog.format}
    (reached : LogReader.Reached source chunk history reader) :
    Anchored history reader.model :=
  holds_of_reached reached anchored_start
    (fun same anchored => anchored.congr (ties_congr same))
    fun step tracks anchored => step.anchored tracks anchored

/-- A forest whose indexes are what a history tells, and which refers to its own
operations and traces only. -/
structure IndexedBy (history : History) (forest : Forest) : Prop where
  /-- A label is the first operation of this name with its descriptor. -/
  labels : ∀ descriptor,
    forest.labels[descriptor]? = history.summary.firstNamed? labelName descriptor
  /-- A jump is the first operation of this name with its descriptor. -/
  jumps : ∀ descriptor,
    forest.jumps[descriptor]? = history.summary.firstNamed? jumpName descriptor
  /-- A descriptor stands for the point for which it was registered first. -/
  registered : ∀ descriptor,
    forest.descriptorPoints[descriptor]? = history.summary.registered? descriptor
  /-- A counter is the last one behind an operation with its descriptor. -/
  counters : ∀ descriptor, forest.counterPoints[descriptor]? = history.summary.counter? descriptor
  /-- An address leads to the last one of the traces which begin there. -/
  starts : ∀ address, forest.byStart[address]? = history.summary.traceAt? address
  /-- The indexes of operations lead to operations. -/
  refers : ∀ index ∈ [forest.labels, forest.jumps, forest.descriptorPoints, forest.counterPoints],
    ∀ (descriptor : UInt64) point, index[descriptor]? = some point → forest.Refers point
  /-- The index of the starts leads to traces. -/
  assembled : ∀ (address id : UInt64),
    forest.byStart[address]? = some id → (forest.trace? id).isSome
  /-- Links begin at operations. -/
  origins : ∀ trace ∈ forest.traces.toList, ∀ link ∈ trace.linksOut.toList ++ trace.linksIn.toList,
    forest.Refers link.origin
  /-- Operations are counted. -/
  counted : ∀ trace ∈ forest.traces.toList, ∀ ref ∈ trace.pointCounts,
    forest.Refers { trace := trace.id, operation := some ref }

/-- In every state of a reader of a trace log, the indexes are what the decoded
records tell. -/
theorem indexedBy_of_reached
    [Stream.Decompressor]
    {source : Stream.Source}
    {chunk : Nat}
    {history : History}
    {reader : LogReader Jitlog.format}
    (reached : LogReader.Reached source chunk history reader) :
    IndexedBy history reader.model := by
  have tracks := tracks_of_reached reached
  have anchored := anchored_of_reached reached
  have tied {trace : Trace} (member : trace ∈ reader.model.traces.toList) :
      reader.model.ties trace.id = trace.ties :=
    ties_of_trace? (tracks.trace?_of_mem member)
  constructor
  case labels => exact tracks.labels
  case jumps => exact tracks.jumps
  case registered => exact tracks.registered
  case counters => exact tracks.counters
  case starts => exact tracks.byStart
  case refers =>
    intro index chosen descriptor point found
    apply tracks.refers
    simp only [List.mem_cons, List.not_mem_nil, or_false] at chosen
    rcases chosen with rfl | rfl | rfl | rfl
    · exact History.mem_of_firstNamed? ((tracks.labels descriptor).symm.trans found)
    · exact History.mem_of_firstNamed? ((tracks.jumps descriptor).symm.trans found)
    · exact tracks.mem_of_registered found
    · exact History.mem_of_counter? ((tracks.counters descriptor).symm.trans found)
  case assembled => exact fun address id => tracks.isSome_of_byStart
  case origins =>
    intro trace member link kept
    apply tracks.refers
    apply anchored.links trace.id
    unfold linksOut linksIn
    rw [tied member]
    exact kept
  case counted =>
    intro trace member ref counted
    apply tracks.refers
    apply anchored.counters trace.id
    rw [tied member]
    exact counted

attribute [local instance] Stream.Zstd.decompressor

/-- The indexes of the log with a bridge: the label is registered for its own
descriptor and for the one to which this was redirected. -/
theorem indexedBy_of_stitchedLog :
    ∃ reader : LogReader Jitlog.format,
      LogReader.Reached (.ofBytes stitchedLog) 16 stitchedRecords.reverse reader ∧
      IndexedBy stitchedRecords.reverse reader.model ∧
      reader.model.labels[(5 : UInt64)]? =
        some { trace := 1, operation := some { stage := .asm, index := 0 } } ∧
      reader.model.descriptorPoints[(6 : UInt64)]? =
        some { trace := 1, operation := some { stage := .asm, index := 0 } } ∧
      reader.model.counterPoints[(5 : UInt64)]? =
        some { trace := 1, operation := some { stage := .asm, index := 1 } } ∧
      reader.model.byStart[(64 : UInt64)]? = some 2 := by
  obtain ⟨reader, reached, _⟩ := reached_stitchedLog
  have indexed := indexedBy_of_reached reached
  exact ⟨reader, reached, indexed, (indexed.labels 5).trans (by decide),
    (indexed.registered 6).trans (by decide), (indexed.counters 5).trans (by decide),
    (indexed.starts 64).trans (by decide)⟩

end Forest
end RuntimeLog
