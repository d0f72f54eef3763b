import RuntimeLog.Proofs.Forest.Targets

/-!
# Tallies of forests

Whatever was counted in a forest is the sum of the ticks which were credited there,
cut at the greatest count.  As long as nothing is cut, no ticks get lost.
-/

namespace RuntimeLog

/-- The ticks of an anomaly which is about a counter. -/
def Anomaly.unattributed? : Anomaly → Option UInt64
  | unattributedCounter _ _ count => some count
  | _ => none

namespace Forest

open Jitlog (Credit History)

variable {past history : History} {forest next : Forest}

/-! ## Records which are no counters -/

/-- A change of a trace which keeps its tally does not change those of the forest. -/
theorem tally?_modifyTrace_of_same
    {change : Trace → Trace}
    (same : ∀ trace, (change trace).id = trace.id)
    (kept : ∀ trace, (change trace).tally = trace.tally)
    (forest : Forest)
    (id : UInt64) :
    (forest.modifyTrace id change).tally? = forest.tally? := by
  funext other
  exact map_trace?_modifyTrace same kept forest id other

/-- The tallies are those of the traces. -/
theorem tally?_congr (same : next.traces = forest.traces) : next.tally? = forest.tally? := by
  funext id
  unfold tally? trace?
  rw [same]

theorem tally?_modifyStage
    (forest : Forest)
    (id : UInt64)
    (kind : StageKind)
    (change : Stage → Stage) :
    (forest.modifyStage id kind change).tally? = forest.tally? :=
  tally?_modifyTrace_of_same (by intro _; rfl) (by intro _; rfl) _ _

/-- Links are not counted. -/
theorem tally?_modifyLinks
    (linksOut linksIn : Trace → Journal TraceLink)
    (forest : Forest)
    (id : UInt64) :
    (forest.modifyTrace id fun trace =>
      { trace with linksOut := linksOut trace, linksIn := linksIn trace }).tally? = forest.tally? :=
  tally?_modifyTrace_of_same (by intro _; rfl) (by intro _; rfl) _ _

theorem tally?_link (forest : Forest) (origin target : TracePoint) :
    (forest.link origin target).tally? = forest.tally? := by
  apply link_preserves fun later => later.tally? = forest.tally?
  case kept => exact fun _ _ _ _ same => (tally?_modifyLinks _ _ _ _).trans same
  case before => rfl

theorem tally?_unlink (forest : Forest) (origin : TracePoint) :
    (forest.unlink origin).tally? = forest.tally? := by
  apply unlink_preserves fun later => later.tally? = forest.tally?
  case kept => exact fun _ _ _ _ same => (tally?_modifyLinks _ _ _ _).trans same
  case before => rfl

/-- Nothing is counted yet in a trace which is started. -/
theorem tally?_push_start
    {id attachedDescriptor : UInt64}
    {kind : TraceKind}
    {driver : Option String}
    (other : UInt64) :
    tally? { forest with
        traces := forest.traces.push (.start id kind attachedDescriptor driver)
        current := some id } other =
      if id = other then some { enterCount := 0, pointCounts := ∅ } else forest.tally? other := by
  unfold tally?
  rw [trace?_push]
  by_cases equal : id = other
  · simp [Trace.start, equal, Trace.tally]
  · simp [Trace.start, equal]

/-- A record which is no counter does not change what was counted, but for the trace
which it starts. -/
theorem Step.tally?_eq
    {record : Jitlog.Record}
    (step : forest.Step record next)
    (other : record.ticks? = none)
    (id : UInt64) :
    next.tally? id =
      if record.started? = some id then some { enterCount := 0, pointCounts := ∅ }
      else forest.tally? id := by
  have same (unstarted : record.started? = none) (kept : next.tally? = forest.tally?) :
      next.tally? id =
        if record.started? = some id then some { enterCount := 0, pointCounts := ∅ }
        else forest.tally? id := by
    rw [unstarted, kept, if_neg (by simp)]
  cases step with
  | inputArguments =>
      exact same rfl (tally?_modifyTrace_of_same (by intro _; rfl) (by intro _; rfl) _ _)
  | operation =>
      exact same rfl ((tally?_congr (traces_indexNext _ _ _ _ _)).trans
        (tally?_modifyStage _ _ _ _))
  | bounds =>
      exact same rfl ((tally?_congr (traces_place _ _ _ _)).trans
        (tally?_modifyTrace_of_same (by intro _; rfl) (by intro _; rfl) _ _))
  | code | layout | sharedStart => exact same rfl (tally?_modifyStage _ _ _ _)
  | enterStage =>
      refine same rfl (tally?_modifyTrace_of_same ?_ ?_ _ _)
      all_goals
        intro trace
        unfold Trace.enterStage
        split <;> rfl
  | stitchBridge => exact same rfl (tally?_link _ _ _)
  | startTrace new =>
      rw [tally?_push_start]
      exact if_congr ⟨congrArg some, Option.some.inj⟩ rfl rfl
  | counter => cases other
  | mergePoint =>
      refine same rfl ((tally?_modifyStage _ _ _ _).trans ?_)
      unfold noteLocation
      split
      · exact tally?_modifyTrace_of_same (by intro _; rfl) (by intro _; rfl) _ _
      · rfl
  | abortTrace =>
      refine same rfl ?_
      unfold Forest.abortTrace
      split
      · exact tally?_modifyTrace_of_same (by intro _; rfl) (by intro _; rfl) _ _
      · rfl
  | redirect =>
      refine same rfl ?_
      split
      · exact (tally?_link _ _ _).trans (tally?_unlink _ _)
      · exact (tally?_congr (traces_registerDescriptor _ _ _)).trans
          ((tally?_link _ _ _).trans (tally?_unlink _ _))
  | opcodes | boundsAgain | codeIgnored | bridgeUnattached | sourceLines | redirectIgnored
  | patch => exact same rfl rfl

/-- A record which is no counter does not change what was counted at a point, but for
those of the trace which it starts. -/
theorem Step.count?_eq
    {record : Jitlog.Record}
    (step : forest.Step record next)
    (other : record.ticks? = none)
    (point : TracePoint) :
    next.count? point =
      if record.started? = some point.trace then
        Trace.Tally.count? { enterCount := 0, pointCounts := ∅ } point.operation
      else forest.count? point := by
  unfold count?
  rw [step.tally?_eq other]
  split <;> rfl

/-- The anomalies about counters, in the order in which they were noted. -/
def unattributed (forest : Forest) : List Anomaly :=
  forest.anomalies.toList.filter fun anomaly => anomaly.unattributed?.isSome

theorem unattributed_congr (same : next.anomalies = forest.anomalies) :
    next.unattributed = forest.unattributed := by
  unfold unattributed
  rw [same]

/-- An anomaly which is not about a counter is none of those. -/
theorem unattributed_report {anomaly : Anomaly} (other : anomaly.unattributed? = none) :
    (forest.report anomaly).unattributed = forest.unattributed := by
  unfold unattributed report
  rw [Journal.toList_push, List.filter_append]
  simp [other]

theorem unattributed_registerDescriptor
    (forest : Forest)
    (descriptor : UInt64)
    (point : TracePoint) :
    (forest.registerDescriptor descriptor point).unattributed = forest.unattributed := by
  unfold registerDescriptor
  split
  · exact unattributed_report rfl
  · rfl

theorem unattributed_indexNext
    (forest : Forest)
    (point : TracePoint)
    (name : String)
    (descriptor : Option UInt64)
    (counted : Option Descriptor) :
    (forest.indexNext point name descriptor counted).unattributed = forest.unattributed := by
  have uncounted : (forest.indexNext point name descriptor counted).unattributed =
      (forest.indexNext point name descriptor none).unattributed := by
    cases counted <;> rfl
  rw [uncounted]
  cases descriptor with
  | none => rfl
  | some number =>
      have indexed : (forest.indexNext point name (some number) none).unattributed =
          (forest.registerDescriptor number point).unattributed := by
        unfold indexNext indexDescriptor
        dsimp only
        split
        · rfl
        · split <;> rfl
      exact indexed.trans (unattributed_registerDescriptor forest number point)

theorem anomalies_unlink (forest : Forest) (origin : TracePoint) :
    (forest.unlink origin).anomalies = forest.anomalies := by
  apply unlink_preserves fun later => later.anomalies = forest.anomalies
  case kept => exact fun _ _ _ _ same => same
  case before => rfl

/-- A record which is no counter notes none. -/
theorem Step.unattributed_eq
    {record : Jitlog.Record}
    (step : forest.Step record next)
    (other : record.ticks? = none) :
    next.unattributed = forest.unattributed := by
  cases step with
  | operation => exact unattributed_indexNext _ _ _ _ _
  | boundsAgain | bridgeUnattached | redirectIgnored => exact unattributed_report rfl
  | bounds =>
      unfold place
      dsimp only
      split
      · split
        · rfl
        · exact unattributed_report rfl
      · rfl
  | @codeIgnored code anomaly noted =>
      apply unattributed_report
      cases anomaly with
      | codeWithoutOperation | codeReassigned => rfl
      | _ => cases noted
  | counter => cases other
  | mergePoint =>
      unfold noteLocation
      split <;> rfl
  | abortTrace =>
      unfold Forest.abortTrace
      split
      · rfl
      · exact unattributed_report rfl
  | @redirect before after target trace origin known registered =>
      have kept : ((forest.unlink origin).link origin (.entry target)).unattributed =
          forest.unattributed := unattributed_congr (anomalies_unlink forest origin)
      split
      · exact kept
      · exact (unattributed_registerDescriptor _ _ _).trans kept
  | _ => rfl

/-! ## Runs -/

/-- A forest in which everything is counted that was credited. -/
structure Counts (history : History) (forest : Forest) : Prop where
  /-- Points are credited in traces which were started. -/
  started : ∀ credit ∈ history.credits, ∀ point,
    credit.place = some point → point.trace ∈ history.started
  /-- Every trace was entered as often as its entry was credited. -/
  entries : ∀ id,
    forest.count? (.entry id) =
      if id ∈ history.started then
        some (Ticks.cut (Ticks.exactSum (history.ticksAt (some (.entry id)))))
      else none
  /-- Every operation was passed as often as it was credited, and only those which
  were credited are counted. -/
  operations : ∀ id ref,
    forest.count? { trace := id, operation := some ref } =
      if history.ticksAt (some { trace := id, operation := some ref }) = [] then none
      else
        some (Ticks.cut (Ticks.exactSum
          (history.ticksAt (some { trace := id, operation := some ref }))))
  /-- The other counters are noted. -/
  unattributed :
    forest.unattributed =
      (history.credits.filter fun credit => credit.place = none).map Credit.anomaly

/-- Nothing is counted in a forest without traces. -/
theorem counts_start (header : Header) : Counts [] (start header) where
  started _ member := by cases member
  entries _ := rfl
  operations _ _ := rfl
  unattributed := rfl

/-- What was counted does not depend on the header, the time, the offset or the fault. -/
theorem Counts.congr
    (counts : Counts past forest)
    (traces : next.traces = forest.traces)
    (anomalies : next.anomalies = forest.anomalies) :
    Counts past next := by
  have same (point : TracePoint) : next.count? point = forest.count? point := by
    unfold count?
    rw [tally?_congr traces]
  constructor
  case started => exact counts.started
  case entries => exact fun id => (same _).trans (counts.entries id)
  case operations => exact fun id ref => (same _).trans (counts.operations id ref)
  case unattributed => exact (unattributed_congr anomalies).trans counts.unattributed

/-- Ticks are added to those which were credited before. -/
theorem cut_exactSum_concat (ticks : List UInt64) (count : UInt64) :
    Ticks.cut (Ticks.exactSum (ticks ++ [count])) =
      Ticks.add (Ticks.cut (Ticks.exactSum ticks)) count := by
  rw [Ticks.exactSum_append, Ticks.add_eq_cut, Ticks.toNat_cut, Ticks.cut_min_add]
  rfl

/-- What is credited is in a trace which was started. -/
theorem Charts.started_of_credited
    (charts : Charts past forest)
    {number : UInt64}
    {kind : UInt8}
    {point : TracePoint}
    (credited : past.credited? number kind = some point) :
    point.trace ∈ past.started := by
  rw [← charts.creditedPoint?_eq] at credited
  obtain ⟨trace, found⟩ := exists_trace_of_credited credited
  exact (charts.tracks.isSome_trace?_iff point.trace).mp (Option.isSome_of_eq_some found)

/-- A counter counts at its place. -/
theorem Charts.counts_counter
    (charts : Charts past forest)
    (counts : Counts past forest)
    (number count : UInt64)
    (kind : UInt8) :
    Counts (.counter number kind count :: past) (forest.addCounter number kind count) := by
  have credits := credits_addCounter forest number kind count
  rw [charts.creditedPoint?_eq] at credits
  constructor
  case started =>
    intro credit member point placed
    rcases List.mem_append.mp member with earlier | last
    · exact counts.started credit earlier point placed
    · cases List.mem_singleton.mp last
      exact charts.started_of_credited placed
  case entries =>
    intro id
    rw [credits.counted, History.ticksAt_counter, counts.entries]
    by_cases here : past.credited? number kind = some (.entry id)
    · have known : id ∈ past.started := charts.started_of_credited here
      rw [if_pos here, if_pos here, if_pos known, cut_exactSum_concat]
      exact (if_pos known).symm
    · rw [if_neg here, if_neg here]
      rfl
  case operations =>
    intro id ref
    rw [credits.counted, History.ticksAt_counter, counts.operations]
    by_cases here : past.credited? number kind = some { trace := id, operation := some ref }
    · rw [if_pos here, if_pos here, cut_exactSum_concat]
      by_cases nothing : past.ticksAt (some { trace := id, operation := some ref }) = []
      · rw [if_pos nothing, nothing]
        rfl
      · rw [if_neg nothing, if_neg (List.append_ne_nil_of_left_ne_nil nothing _)]
        rfl
    · rw [if_neg here, if_neg here]
  case unattributed =>
    rw [History.credits_cons, History.credit?, Option.toList_some, List.filter_append,
      List.map_append, ← counts.unattributed, unattributed, credits.anomalies, List.filter_append]
    congr 1
    by_cases nowhere : past.credited? number kind = none
    · rw [if_pos nowhere, nowhere]
      rfl
    · rw [if_neg nowhere]
      simp [nowhere]

/-- A record which is no counter is credited nowhere. -/
theorem credit?_eq_none {record : Jitlog.Record} (other : record.ticks? = none) :
    past.credit? record = none := by
  rw [← History.map_count_credit? past record] at other
  exact Option.map_eq_none_iff.mp other

/-- Nothing was credited in a trace which was not started. -/
theorem Counts.ticksAt_eq_nil
    (counts : Counts past forest)
    {point : TracePoint}
    (unstarted : point.trace ∉ past.started) :
    past.ticksAt (some point) = [] := by
  unfold History.ticksAt
  rw [List.map_eq_nil_iff, List.filter_eq_nil_iff]
  intro credit member here
  exact unstarted (counts.started credit member point (of_decide_eq_true here))

/-- The started traces are those which were started before, and the new one. -/
theorem mem_started_cons {record : Jitlog.Record} {id : UInt64} :
    id ∈ History.started (record :: past) ↔ record.started? = some id ∨ id ∈ past.started := by
  unfold History.started
  rw [List.mem_reverse, List.mem_reverse, List.filterMap_cons]
  cases record.started? with
  | none => simp
  | some new => simp [eq_comm]

/-- A record which starts a trace has an id which is not known yet. -/
theorem Step.unstarted_of_starts
    {record : Jitlog.Record}
    (step : forest.Step record next)
    (tracks : Tracks past.summary forest.outline)
    {id : UInt64}
    (starts : record.started? = some id) :
    id ∉ past.started := by
  cases step with
  | startTrace new =>
      cases starts
      rw [← tracks.isSome_trace?_iff, Option.not_isSome_iff_eq_none]
      exact new
  | _ => cases starts

/-- A record which is no counter counts nothing. -/
theorem Step.counts_of_uncredited
    {record : Jitlog.Record}
    (step : forest.Step record next)
    (tracks : Tracks past.summary forest.outline)
    (counts : Counts past forest)
    (other : record.ticks? = none) :
    Counts (record :: past) next := by
  have uncredited : past.credit? record = none := credit?_eq_none other
  have kept : History.credits (record :: past) = past.credits := by
    rw [History.credits_cons, uncredited, Option.toList_none, List.append_nil]
  constructor
  case started =>
    intro credit member point placed
    rw [kept] at member
    exact mem_started_cons.mpr (.inr (counts.started credit member point placed))
  case entries =>
    intro id
    rw [History.ticksAt_of_uncredited uncredited, step.count?_eq other, counts.entries]
    by_cases starts : record.started? = some id
    · have nothing : past.ticksAt (some (.entry id)) = [] :=
        counts.ticksAt_eq_nil (step.unstarted_of_starts tracks starts)
      rw [if_pos (mem_started_cons.mpr (.inl starts)), nothing]
      exact if_pos starts
    · refine (if_neg starts).trans (if_congr ?_ rfl rfl)
      rw [mem_started_cons, or_iff_right starts]
  case operations =>
    intro id ref
    rw [History.ticksAt_of_uncredited uncredited, step.count?_eq other, counts.operations]
    by_cases starts : record.started? = some id
    · have nothing : past.ticksAt (some { trace := id, operation := some ref }) = [] :=
        counts.ticksAt_eq_nil (step.unstarted_of_starts tracks starts)
      rw [nothing, if_pos rfl]
      exact (if_pos starts).trans Std.ExtTreeMap.getElem?_empty
    · exact if_neg starts
  case unattributed =>
    rw [kept, ← counts.unattributed]
    exact step.unattributed_eq other

/-- A record counts what it is credited to. -/
theorem Step.counts
    {record : Jitlog.Record}
    (step : forest.Step record next)
    (charts : Charts past forest)
    (counts : Counts past forest) :
    Counts (record :: past) next := by
  cases counted : record.ticks? with
  | none => exact step.counts_of_uncredited charts.tracks counts counted
  | some ticks =>
      cases step with
      | counter => exact charts.counts_counter counts _ _ _
      | _ => cases counted

/-- What the history tells about places does not depend on the header, the time, the
offset or the fault. -/
theorem Charts.congr
    (charts : Charts past forest)
    (outline : next.outline = forest.outline)
    (traces : next.traces = forest.traces) :
    Charts past next where
  tracks := outline ▸ charts.tracks
  mirrored := charts.mirrored.of_ties (ties_congr traces)
  leads origin := (linksFrom_congr (ties_congr traces) origin).trans (charts.leads origin)

/-- In every state of a reader everything is counted that was credited. -/
theorem counts_of_reached
    [Stream.Decompressor]
    {source : Stream.Source}
    {chunk : Nat}
    {history : History}
    {reader : LogReader Jitlog.format}
    (reached : LogReader.Reached source chunk history reader) :
    Counts history reader.model := by
  have both : Charts history reader.model ∧ Counts history reader.model := by
    apply reached.preserves Jitlog.ledger fun past forest => Charts past forest ∧ Counts past forest
    case atStart =>
      intro header
      exact ⟨charts_start header, counts_start header⟩
    case step =>
      rintro past record offset forest next behind ⟨charts, counts⟩ applied
      have step := step_of_apply applied
      exact ⟨(step.charts charts).congr rfl rfl, (step.counts charts counts).congr rfl rfl⟩
    case stopped =>
      rintro past forest fault ⟨charts, counts⟩
      exact ⟨charts.congr rfl rfl, counts.congr rfl rfl⟩
  exact both.2

end Forest
end RuntimeLog
