import RuntimeLog.Proofs.Forest.Attachments
import RuntimeLog.Proofs.Forest.Links
import RuntimeLog.Proofs.Jitlog.Credits

/-!
# Credits in a forest

A counter is credited to the place which the records before it tell: to one trace, to
one operation, or to none, which is noted.  Nothing else changes.
-/

namespace RuntimeLog

namespace Trace

/-- What was counted in a trace. -/
structure Tally where
  enterCount : UInt64
  pointCounts : Std.ExtTreeMap OpRef UInt64 compare

/-- The tally of a trace. -/
def tally (trace : Trace) : Tally :=
  { enterCount := trace.enterCount, pointCounts := trace.pointCounts }

/-- The trace without anything counted. -/
def uncounted (trace : Trace) : Trace :=
  { trace with enterCount := 0, pointCounts := ∅ }

/-- What was counted at the entry of a trace, or at one of its operations if this was
counted at all. -/
def Tally.count? (tally : Tally) : Option OpRef → Option UInt64
  | none => some tally.enterCount
  | some ref => tally.pointCounts[ref]?

/-- Ticks are added where they are counted. -/
theorem count?_count (trace : Trace) (operation other : Option OpRef) (count : UInt64) :
    (trace.count operation count).tally.count? other =
      if operation = other then
        some (Ticks.add ((trace.tally.count? other).getD 0) count)
      else trace.tally.count? other := by
  cases operation with
  | none =>
      cases other with
      | none => rfl
      | some ref => rfl
  | some ref =>
      cases other with
      | none => rfl
      | some other =>
          show (trace.pointCounts.insert ref (Ticks.add (trace.pointCount ref) count))[other]? = _
          rw [Std.ExtTreeMap.getElem?_insert, pointCount, Std.ExtTreeMap.getD_eq_getD_getElem?]
          by_cases same : ref = other
          · subst same
            rw [if_pos Std.ReflCmp.compare_self, if_pos rfl]
            rfl
          · rw [if_neg fun equal => same (Std.LawfulEqCmp.eq_of_compare equal),
              if_neg fun equal => same (Option.some.inj equal)]
            rfl

/-- Counting changes nothing else. -/
theorem uncounted_count (trace : Trace) (operation : Option OpRef) (count : UInt64) :
    (trace.count operation count).uncounted = trace.uncounted := by
  cases operation <;> rfl

/-- A counted trace has the same id. -/
theorem id_count (trace : Trace) (operation : Option OpRef) (count : UInt64) :
    (trace.count operation count).id = trace.id := by
  cases operation <;> rfl

end Trace

namespace Forest

open Jitlog (History LoggedOperation)

variable {past : History} {forest next : Forest}

/-! ## Counters -/

/-- What was counted in the trace with an id. -/
def tally? (forest : Forest) (id : UInt64) : Option Trace.Tally :=
  (forest.trace? id).map Trace.tally

/-- What was counted at a point. -/
def count? (forest : Forest) (point : TracePoint) : Option UInt64 :=
  (forest.tally? point.trace).bind fun tally => tally.count? point.operation

/-- The forest without anything counted or noted, at no time. -/
def uncounted (forest : Forest) : Forest :=
  { forest with
    traces := ⟨forest.traces.newestFirst.map Trace.uncounted⟩
    anomalies := .empty
    time := 0
    decodedUntil := 0 }

/-- What a counter does to a forest if it is credited to some place. -/
structure Credits
    (before later : Forest)
    (number : UInt64)
    (kind : UInt8)
    (count : UInt64)
    (place : Option TracePoint) : Prop where
  /-- The ticks are added there, and nowhere else. -/
  counted : ∀ point,
    later.count? point =
      if place = some point then some (Ticks.add ((before.count? point).getD 0) count)
      else before.count? point
  /-- They are noted if there is no such place, and only then. -/
  anomalies :
    later.anomalies.toList =
      before.anomalies.toList ++
        if place = none then [.unattributedCounter number kind count] else []
  /-- Nothing else changes. -/
  unchanged : later.uncounted = before.uncounted

/-- What is credited is in a trace which is there. -/
theorem exists_trace_of_credited
    {number : UInt64}
    {kind : UInt8}
    {point : TracePoint}
    (credited : forest.creditedPoint? number kind = some point) :
    ∃ trace, forest.trace? point.trace = some trace := by
  unfold creditedPoint? at credited
  split at credited
  · rename_i trace found
    cases credited
    exact ⟨trace, found⟩
  · exact Option.isSome_iff_exists.mp (Option.filter_eq_some_iff.mp credited).2

/-- Points of a trace differ in their operations. -/
theorem operation_eq_iff {place point : TracePoint} (inside : point.trace = place.trace) :
    place.operation = point.operation ↔ some place = some point := by
  constructor
  · intro same
    cases place
    cases point
    cases inside
    cases same
    rfl
  · rintro ⟨⟩
    rfl

/-- A change of a trace which changes no more than what was counted is not seen
without this. -/
theorem uncounted_modifyTrace
    {change : Trace → Trace}
    (same : ∀ trace, (change trace).uncounted = trace.uncounted)
    (forest : Forest)
    (id : UInt64) :
    (forest.modifyTrace id change).uncounted = forest.uncounted := by
  have kept : (forest.modifyTrace id change).traces.newestFirst.map Trace.uncounted =
      forest.traces.newestFirst.map Trace.uncounted :=
    Journal.map_newestFirst_modify same forest.traces
  unfold uncounted
  rw [kept]
  rfl

/-- A counter is credited to the place which the forest finds for it. -/
theorem credits_addCounter (forest : Forest) (number : UInt64) (kind : UInt8) (count : UInt64) :
    Credits forest (forest.addCounter number kind count) number kind count
      (forest.creditedPoint? number kind) := by
  unfold addCounter
  cases credited : forest.creditedPoint? number kind with
  | none =>
      constructor
      case counted => exact fun point => (if_neg (by simp)).symm
      case anomalies => exact Journal.toList_push _ _
      case unchanged => rfl
  | some place =>
      constructor
      case counted =>
        intro point
        obtain ⟨trace, found⟩ := exists_trace_of_credited credited
        unfold count? tally?
        dsimp only
        rw [trace?_modifyTrace fun trace => trace.id_count place.operation count]
        by_cases inside : point.trace = place.trace
        · rw [inside, found]
          simp only [Option.map_some, Option.bind_some, if_true, Trace.count?_count]
          exact if_congr (operation_eq_iff inside) rfl rfl
        · have elsewhere : some place ≠ some point := by
            rintro ⟨⟩
            exact inside rfl
          rw [if_neg elsewhere]
          simp only [if_neg inside, Option.map_id']
      case anomalies => exact (List.append_nil _).symm
      case unchanged =>
        exact uncounted_modifyTrace (fun trace => trace.uncounted_count place.operation count)
          forest place.trace

/-! ## Places -/

/-- A forest which tells where the counters of a history are credited. -/
structure Charts (history : History) (forest : Forest) : Prop where
  tracks : Tracks history.summary forest.outline
  mirrored : forest.Mirrored
  leads : Leads history forest

/-- A forest without traces charts nothing. -/
theorem charts_start (header : Header) : Charts [] (start header) where
  tracks := tracks_start header
  mirrored := mirrored_start header
  leads _ := rfl

/-- A record charts what it links. -/
theorem Step.charts
    {record : Jitlog.Record}
    (step : forest.Step record next)
    (charts : Charts past forest) :
    Charts (record :: past) next where
  tracks := step.tracks charts.tracks
  mirrored := step.mirrored charts.tracks charts.mirrored
  leads := step.leads charts.tracks charts.leads

/-- The traces which are found are those which were started. -/
theorem Tracks.isSome_trace?_iff (tracks : Tracks past.summary forest.outline) (id : UInt64) :
    (forest.trace? id).isSome ↔ id ∈ past.started := by
  have ids : forest.ids = past.started := tracks.ids
  rw [Forest.isSome_trace?, ids]

/-- The last target of a point is there. -/
theorem Charts.isSome_of_lastTarget?
    (charts : Charts past forest)
    {origin : TracePoint}
    {target : UInt64}
    (last : forest.lastTarget? origin = some target) :
    (forest.trace? target).isSome := by
  rw [charts.leads.lastTarget?_eq] at last
  have linked : TraceLink.mk origin (.entry target) ∈ forest.linksFrom origin := by
    rw [charts.leads origin]
    exact List.mem_map_of_mem (List.mem_of_getLast? last)
  obtain ⟨_, trace, _, ends, _⟩ := charts.mirrored.ends (List.mem_filter.mp linked).1
  exact Option.isSome_of_eq_some ends

/-- What a counter counts is told by the history. -/
theorem Charts.countedPoint?_eq
    (charts : Charts past forest)
    (descriptor : UInt64)
    (kind : UInt8) :
    forest.countedPoint? descriptor kind = past.counted? descriptor kind := by
  have labels : forest.labels[descriptor]? = past.summary.firstNamed? labelName descriptor :=
    charts.tracks.labels descriptor
  have counters : forest.counterPoints[descriptor]? = past.summary.counter? descriptor :=
    charts.tracks.counters descriptor
  have registered : forest.descriptorPoints[descriptor]? = past.summary.registered? descriptor :=
    charts.tracks.registered descriptor
  unfold countedPoint? History.counted?
  simp only [beq_iff_eq, labels, counters, registered, charts.leads.lastTarget?_eq]
  refine ite_congr rfl (fun _ => rfl) fun _ => ite_congr rfl (fun _ => rfl) fun _ =>
    ite_congr rfl (fun _ => ?_) fun _ => rfl
  congr 1
  funext origin
  cases past.lastTarget? origin <;> rfl

/-- What a counter counts is in a trace which is there. -/
theorem Charts.isSome_of_countedPoint?
    (charts : Charts past forest)
    {descriptor : UInt64}
    {kind : UInt8}
    {point : TracePoint}
    (counted : forest.countedPoint? descriptor kind = some point) :
    (forest.trace? point.trace).isSome := by
  have tracks := charts.tracks
  unfold countedPoint? at counted
  split at counted
  · exact tracks.isSome_of_logged
      (History.mem_of_firstNamed? ((tracks.labels descriptor).symm.trans counted))
  · split at counted
    · exact tracks.isSome_of_logged
        (History.mem_of_counter? ((tracks.counters descriptor).symm.trans counted))
    · split at counted
      · obtain ⟨origin, registered, same⟩ := Option.map_eq_some_iff.mp counted
        split at same
        · rename_i target last
          subst same
          exact charts.isSome_of_lastTarget? last
        · subst same
          exact tracks.isSome_of_registered registered
      · cases counted

/-- A counter is credited to the place which the history tells. -/
theorem Charts.creditedPoint?_eq
    (charts : Charts past forest)
    (number : UInt64)
    (kind : UInt8) :
    forest.creditedPoint? number kind = past.credited? number kind := by
  have known := charts.tracks.isSome_trace?_iff number
  unfold creditedPoint? History.credited?
  cases found : forest.trace? number with
  | some trace =>
      rw [found] at known
      rw [if_pos (known.mp rfl)]
  | none =>
      rw [found] at known
      have unstarted : number ∉ past.started := fun started => by cases known.mpr started
      rw [if_neg unstarted, ← charts.countedPoint?_eq]
      cases counted : forest.countedPoint? number kind with
      | none => rfl
      | some point => exact Option.filter_some_pos (charts.isSome_of_countedPoint? counted)

/-- In every state of a reader the forest charts the decoded records. -/
theorem charts_of_reached
    [Stream.Decompressor]
    {source : Stream.Source}
    {chunk : Nat}
    {history : History}
    {reader : LogReader Jitlog.format}
    (reached : LogReader.Reached source chunk history reader) :
    Charts history reader.model where
  tracks := tracks_of_reached reached
  mirrored := mirrored_of_reached reached
  leads := leads_of_reached reached

end Forest
end RuntimeLog
