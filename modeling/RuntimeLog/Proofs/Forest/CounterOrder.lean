import RuntimeLog.Proofs.Forest.CodeHistory
import RuntimeLog.Proofs.Forest.Skeleton
import RuntimeLog.Proofs.Forest.Tallies
import RuntimeLog.Proofs.LogReader.Continuation

/-!
# The order of counters

Counters which follow each other may come in any order: the forest is the same, but
for the order in which those are noted which match no trace.
-/

namespace RuntimeLog

/-- Saturating additions can be made in either order. -/
theorem Ticks.add_right_comm (count first second : UInt64) :
    add (add count first) second = add (add count second) first := by
  apply UInt64.toNat_inj.mp
  simp only [toNat_add]
  omega

namespace Trace

/-- A tally is what is counted at the entry and at the operations. -/
theorem Tally.ext_count?
    {left right : Tally}
    (same : ∀ operation, left.count? operation = right.count? operation) :
    left = right := by
  have entries : left.enterCount = right.enterCount := Option.some.inj (same none)
  have points : left.pointCounts = right.pointCounts :=
    Std.ExtTreeMap.ext_getElem? fun {ref} => same (some ref)
  cases left
  cases right
  cases entries
  cases points
  rfl

/-- A trace consists of its tally and the rest. -/
theorem eq_of_tally
    {left right : Trace}
    (uncounted : left.uncounted = right.uncounted)
    (tally : left.tally = right.tally) :
    left = right := by
  have entries : left.enterCount = right.enterCount := congrArg Tally.enterCount tally
  have points : left.pointCounts = right.pointCounts := congrArg Tally.pointCounts tally
  calc
    left = { left.uncounted with
        enterCount := left.enterCount, pointCounts := left.pointCounts } := rfl
    _ = { right.uncounted with
        enterCount := right.enterCount, pointCounts := right.pointCounts } := by
      rw [uncounted, entries, points]
    _ = right := rfl

/-- Ticks of a trace can be counted in either order. -/
theorem count_count
    (trace : Trace)
    (first second : Option OpRef)
    (count further : UInt64) :
    (trace.count first count).count second further =
      (trace.count second further).count first count := by
  apply eq_of_tally
  · simp only [uncounted_count]
  · apply Tally.ext_count?
    intro operation
    simp only [count?_count]
    by_cases here : first = operation
    all_goals by_cases there : second = operation
    all_goals simp [here, there, Ticks.add_right_comm]

end Trace

namespace Forest

open Jitlog (History Record)

variable {forest : Forest}

/-! ## Runs of counters -/

/-- The point which a counter counts, with its ticks. -/
def credit? (forest : Forest) : Record → Option (TracePoint × UInt64)
  | .counter number kind count =>
      (forest.creditedPoint? number kind).map fun point => (point, count)
  | _ => none

/-- The anomaly of a counter which counts no point. -/
def noted? (forest : Forest) : Record → Option Anomaly
  | .counter number kind count =>
      if forest.creditedPoint? number kind = none then
        some (.unattributedCounter number kind count)
      else none
  | _ => none

/-- Count ticks at their points. -/
def countAll (traces : Journal Trace) (credits : List (TracePoint × UInt64)) : Journal Trace :=
  credits.foldl
    (fun traces credit =>
      traces.modify (fun trace => trace.id == credit.1.trace) fun trace =>
        trace.count credit.1.operation credit.2)
    traces

/-- The forest behind a run of counters which ends at some offset. -/
def behindCounters (forest : Forest) (counters : List Record) (behind : Nat) : Forest :=
  { forest with
    traces := countAll forest.traces (counters.filterMap forest.credit?)
    anomalies := ⟨(counters.filterMap forest.noted?).reverse ++ forest.anomalies.newestFirst⟩
    time := forest.time + counters.length
    decodedUntil := if counters.isEmpty then forest.decodedUntil else behind }

/-- Ticks can be counted in any order. -/
theorem countAll_perm
    {credits reordered : List (TracePoint × UInt64)}
    (same : credits.Perm reordered)
    (traces : Journal Trace) :
    countAll traces credits = countAll traces reordered := by
  apply same.foldl_eq'
  intro first _ second _ traces
  exact traces.modify_modify_key (fun trace => trace.id_count _ _) (fun trace => trace.id_count _ _)
    (fun trace => trace.count_count _ _ _ _) _ _

/-- What was counted is not in the skeleton. -/
theorem skeleton_uncounted (forest : Forest) : forest.uncounted.skeleton = forest.skeleton := by
  have traces : (forest.traces.newestFirst.map Trace.uncounted).map Trace.skeleton =
      forest.traces.newestFirst.map Trace.skeleton := List.map_map
  unfold skeleton uncounted
  dsimp only
  rw [traces]

/-- The place of a counter does not depend on what was counted before. -/
theorem creditedPoint?_congr
    {next : Forest}
    (same : next.uncounted = forest.uncounted)
    (number : UInt64)
    (kind : UInt8) :
    next.creditedPoint? number kind = forest.creditedPoint? number kind := by
  apply creditedPoint?_of_skeleton
  rw [← skeleton_uncounted, same, skeleton_uncounted]

/-- A counter leaves the places of all others. -/
theorem credit?_congr {next : Forest} (same : next.uncounted = forest.uncounted) :
    next.credit? = forest.credit? := by
  funext record
  cases record with
  | counter number kind count =>
      simp only [credit?, creditedPoint?_congr same]
  | _ => rfl

theorem noted?_congr {next : Forest} (same : next.uncounted = forest.uncounted) :
    next.noted? = forest.noted? := by
  funext record
  cases record with
  | counter number kind count =>
      simp only [noted?, creditedPoint?_congr same]
  | _ => rfl

/-- Behind a counter, the others are counted where they would have been in front of
it. -/
theorem behindCounters_cons
    (number count : UInt64)
    (kind : UInt8)
    (counters : List Record)
    (middle behind : Nat) :
    (Jitlog.format.advance (forest.addCounter number kind count) middle).behindCounters counters
        behind =
      forest.behindCounters (.counter number kind count :: counters)
        (if counters.isEmpty then middle else behind) := by
  have unchanged : (Jitlog.format.advance (forest.addCounter number kind count) middle).uncounted =
      forest.uncounted :=
    (credits_addCounter forest number kind count).unchanged
  have time : forest.time + 1 + counters.length =
      forest.time + (Record.counter number kind count :: counters).length := by
    rw [List.length_cons, Nat.add_assoc, Nat.add_comm 1]
  unfold behindCounters
  rw [credit?_congr unchanged, noted?_congr unchanged]
  unfold addCounter
  cases credited : forest.creditedPoint? number kind with
  | none =>
      have uncounted : forest.credit? (.counter number kind count) = none := by
        simp only [credit?, credited, Option.map_none]
      have noted : forest.noted? (.counter number kind count) =
          some (.unattributedCounter number kind count) := by
        simp only [noted?, credited, if_true]
      rw [List.filterMap_cons_none uncounted, List.filterMap_cons_some noted, List.reverse_cons,
        List.append_assoc, ← time]
      rfl
  | some point =>
      have counted : forest.credit? (.counter number kind count) = some (point, count) := by
        simp only [credit?, credited, Option.map_some]
      have unnoted : forest.noted? (.counter number kind count) = none := by
        simp only [noted?, credited, reduceCtorEq, if_false]
      rw [List.filterMap_cons_some counted, List.filterMap_cons_none unnoted, ← time]
      rfl

/-- A run of counters is counted at the places which they have in front of it. -/
theorem replay_counters
    (forest : Forest)
    (script : Script Record)
    {counters : List Record}
    (only : ∀ record ∈ counters, record.ticks?.isSome)
    (offset : Nat) :
    (Jitlog.format.replay script forest offset counters).phase = .streaming ∧
      (Jitlog.format.replay script forest offset counters).model =
        forest.behindCounters counters (offset + (script.encodeAll counters).length) ∧
      (Jitlog.format.replay script forest offset counters).offset =
        offset + (script.encodeAll counters).length := by
  induction counters generalizing forest offset with
  | nil => exact ⟨rfl, rfl, rfl⟩
  | cons record counters inductionHypothesis =>
      obtain ⟨first, others⟩ := List.forall_mem_cons.mp only
      cases record with
      | counter number kind count =>
          rw [LogFormat.replay_of_ok rfl]
          obtain ⟨phase, model, behind⟩ := inductionHypothesis
            (Jitlog.format.advance (forest.addCounter number kind count)
              (offset + (script.encode (.counter number kind count)).length))
            others
            (offset + (script.encode (.counter number kind count)).length)
          rw [Script.encodeAll_cons, List.length_append, ← Nat.add_assoc]
          refine ⟨phase, model.trans ?_, behind⟩
          rw [behindCounters_cons]
          cases counters <;> rfl
      | _ => cases first

/-- Behind counters in another order, the forest only differs in the order of their
anomalies. -/
theorem behindCounters_perm
    {counters reordered : List Record}
    (same : counters.Perm reordered)
    (behind : Nat) :
    forest.behindCounters reordered behind =
      { forest.behindCounters counters behind with
        anomalies :=
          ⟨(reordered.filterMap forest.noted?).reverse ++ forest.anomalies.newestFirst⟩ } := by
  unfold behindCounters
  rw [countAll_perm (same.filterMap forest.credit?), same.length_eq, same.isEmpty_eq]

/-! ## What follows counters -/

/-- No record sees which anomalies were noted before. -/
theorem ignores_noted (older : List Anomaly) : Jitlog.format.Ignores (disguise (.noted older)) where
  payload _ _ meaning := by cases meaning <;> rfl
  apply offset record := ignores_apply offset record
  advance _ _ := rfl
  stop _ _ := rfl
  isComplete _ := rfl

/-- Behind forests which only differ in their anomalies, a log decodes to forests
which only differ in these. -/
theorem exists_decodeFrom_of_anomalies
    (dialect : Dialect Jitlog.Marker)
    (forest : Forest)
    (offset : Nat)
    (bytes : Bytes) :
    ∃ (last : Forest) (further : List Anomaly), ∀ older : List Anomaly,
      (Jitlog.format.decodeFrom dialect { forest with anomalies := ⟨older⟩ } offset bytes).2 =
        { last with anomalies := ⟨further ++ older⟩ } := by
  let bare : Forest := { forest with anomalies := .empty }
  let last := (Jitlog.format.decodeFrom dialect bare offset bytes).2
  refine ⟨last, last.anomalies.newestFirst, fun older => ?_⟩
  exact congrArg Prod.snd ((ignores_noted older).decodeFrom_eq dialect bare offset bytes)

/-- A log of good records has the header of the forest to which it decodes. -/
theorem header_of_records
    {dialect : Dialect Jitlog.Marker}
    {last : Forest}
    {offset total : Nat}
    {bytes : Bytes}
    {answers : List Status}
    (records : Jitlog.format.Records dialect forest offset bytes answers total last) :
    last.header = forest.header := by
  apply records.preserves fun later => later.header = forest.header
  case before => rfl
  case step =>
    intro middle next record offset behind applied same
    have kept := (Jitlog.atomic_apply offset record).view_of_ok applied
    exact (congrArg Account.header kept).trans same

/-- Counters are decoded to the forest behind them, with which decoding goes on. -/
theorem decodeFrom_counters
    {header : Header}
    {markers : MarkerTable Jitlog.Marker}
    (known : ∀ marker meaning, markers.lookup marker = .ok meaning ↔
      meaning.IsIn header.version ∧ meaning.byte = marker)
    {counters : List Record}
    (only : ∀ record ∈ counters, record.ticks?.isSome)
    (writable : ∀ record ∈ counters, record.Writable header.words header.version)
    (offset : Nat)
    (back : Bytes) :
    (Jitlog.format.decodeFrom { header, markers } forest offset
        ((Jitlog.script header.words).encodeAll counters ++ back)).2 =
      (Jitlog.format.decodeFrom { header, markers }
        (forest.behindCounters counters
          (offset + ((Jitlog.script header.words).encodeAll counters).length))
        (offset + ((Jitlog.script header.words).encodeAll counters).length) back).2 := by
  have others : ∀ record ∈ counters, record.marker ≠ .mergePoint := by
    intro record member other
    have ticks := only record member
    cases record with
    | counter => cases other
    | _ => cases ticks
  have legible := Jitlog.legible_of_follows known writable (Alike.refl forest)
    (Jitlog.followsLayouts_of_others others forest) offset
  obtain ⟨phase, model, behind⟩ := replay_counters forest (Jitlog.script header.words) only offset
  rw [LogFormat.decodeFrom_of_legible legible, phase]
  dsimp only
  rw [model, behind]

/-- A forest with other anomalies, oldest first. -/
def withAnomalies (forest : Forest) (anomalies : List Anomaly) : Forest :=
  { forest with anomalies := ⟨anomalies.reverse⟩ }

/-- A log which decodes to a forest and behind which counters may come in any order,
whatever follows them: the forest in the end is the same, but for the order of their own
anomalies. -/
def AllowsAnyOrder [Stream.Decompressor] (log : Bytes) (forest : Forest) : Prop :=
  ∀ counters : List Record,
    (∀ record ∈ counters, record.ticks?.isSome) →
    (∀ record ∈ counters, record.Writable forest.header.words forest.header.version) →
    ∀ back : Bytes, ∃ (last : Forest) (further : List Anomaly), ∀ order : List Record,
      order.Perm counters → ∀ chunk,
        Jitlog.format.decodeSource
            (.ofBytes (log ++ ((Jitlog.script forest.header.words).encodeAll order ++ back)))
            chunk =
          .ok (.ok (last.withAnomalies
            (forest.anomalies.toList ++ order.filterMap forest.noted? ++ further)))

/-- Behind a log without a fault, counters may come in any order. -/
theorem allowsAnyOrder_of_decodeSource
    [Stream.Decompressor]
    {log : Bytes}
    {chunk : Nat}
    (plain : ¬ Stream.Zstd.magic <+: log)
    (decoded : Jitlog.format.decodeSource (.ofBytes log) chunk = .ok (.ok forest))
    (sound : forest.fault = none) :
    AllowsAnyOrder log forest := by
  intro counters only writable back
  obtain ⟨header, size, markers, answers, parsed, supported, records⟩ :=
    LogReader.exists_records_of_decodeSource Jitlog.ledger plain decoded sound Bool.false_ne_true
  have sameHeader : forest.header = header := header_of_records records
  subst sameHeader
  obtain ⟨_, again, known⟩ := Jitlog.exists_markers (Jitlog.supported_of_markers? supported)
  cases supported.symm.trans again
  obtain ⟨last, further, decodes⟩ := exists_decodeFrom_of_anomalies
    { header := forest.header, markers }
    (forest.behindCounters counters
      (log.length + ((Jitlog.script forest.header.words).encodeAll counters).length))
    (log.length + ((Jitlog.script forest.header.words).encodeAll counters).length) back
  refine ⟨last, further.reverse, fun order same other => ?_⟩
  have size : ((Jitlog.script forest.header.words).encodeAll order).length =
      ((Jitlog.script forest.header.words).encodeAll counters).length :=
    (same.flatMap_right _).length_eq
  rw [LogReader.decodeSource_append plain parsed supported records,
    decodeFrom_counters known (fun record member => only record (same.subset member))
      (fun record member => writable record (same.subset member)),
    size, behindCounters_perm same.symm, decodes]
  simp [withAnomalies, Journal.toList]

/-! ## Counters in histories -/

variable {header : Header} {older newer : History}

/-- Counters behind a history make the forest behind them. -/
theorem forest?_counters
    (made : older.forest? header = some forest)
    {counters : List Record}
    (only : ∀ record ∈ counters, record.ticks?.isSome) :
    History.forest? header (counters.reverse ++ older) =
      some (forest.behindCounters counters 0) := by
  induction counters generalizing older forest with
  | nil => exact made
  | cons record counters inductionHypothesis =>
      obtain ⟨first, others⟩ := List.forall_mem_cons.mp only
      cases record with
      | counter number kind count =>
          have next : History.forest? header (.counter number kind count :: older) =
              some (Jitlog.format.advance (forest.addCounter number kind count) 0) :=
            Jitlog.forest?_cons_of_apply made rfl
          rw [List.reverse_cons, List.append_assoc, List.singleton_append,
            inductionHypothesis next others, behindCounters_cons, ite_self]
      | _ => cases first

/-- Behind histories whose forests only differ in their anomalies, the same records make
forests which only differ in these. -/
theorem exists_forest?_of_anomalies
    {one other : History}
    {base made : Forest}
    {oneOlder otherOlder : List Anomaly}
    (madeOne : one.forest? header = some { base with anomalies := ⟨oneOlder⟩ })
    (madeOther : other.forest? header = some { base with anomalies := ⟨otherOlder⟩ })
    (behind : History.forest? header (newer ++ one) = some made) :
    ∃ (last : Forest) (further : List Anomaly),
      made = { last with anomalies := ⟨further ++ oneOlder⟩ } ∧
      History.forest? header (newer ++ other) =
        some { last with anomalies := ⟨further ++ otherOlder⟩ } := by
  induction newer generalizing made with
  | nil => exact ⟨base, [], Option.some.inj (behind.symm.trans madeOne), madeOther⟩
  | cons record newer inductionHypothesis =>
      obtain ⟨before, next, known, applied, rfl⟩ := Jitlog.forest?_cons_eq_some behind
      obtain ⟨last, further, rfl, same⟩ := inductionHypothesis known
      -- both forests are the same one in front of which other anomalies were noted
      let bare : Forest := { last with anomalies := ⟨further⟩ }
      have ranOne := @ignores_apply (.noted oneOlder) 0 record bare
      have ranOther := @ignores_apply (.noted otherOlder) 0 record bare
      cases ran : (Jitlog.apply 0 record).run bare with
      | error error left =>
          rw [ran] at ranOne
          cases applied.symm.trans ranOne
      | ok value after =>
          rw [ran] at ranOne ranOther
          cases applied.symm.trans ranOne
          refine ⟨Jitlog.format.advance after 0, after.anomalies.newestFirst, rfl, ?_⟩
          exact Jitlog.forest?_cons_of_apply same ranOther

/-- Readers of logs which only differ in the order of counters which follow each other
end in forests which are alike, but for the order of the anomalies of these. -/
theorem exists_alike_of_counters
    [Stream.Decompressor]
    {source other : Stream.Source}
    {chunk size : Nat}
    {reader reordered : LogReader Jitlog.format}
    {counters order : List Record}
    (only : ∀ record ∈ counters, record.ticks?.isSome)
    (same : order.Perm counters)
    (reached : LogReader.Reached source chunk (newer ++ (counters.reverse ++ older)) reader)
    (swapped : LogReader.Reached other size (newer ++ (order.reverse ++ older)) reordered) :
    ∃ (before last : Forest) (further : List Anomaly),
      older.forest? reader.header = some before ∧
      (last.withAnomalies
        (before.anomalies.toList ++ counters.filterMap before.noted? ++ further)).Alike
          reader.model ∧
      (last.withAnomalies
        (before.anomalies.toList ++ order.filterMap before.noted? ++ further)).Alike
          reordered.model := by
  obtain ⟨made, known, alike⟩ := Jitlog.alike_of_reached reached reader.header
  obtain ⟨other, knownOther, alikeOther⟩ := Jitlog.alike_of_reached swapped reader.header
  obtain ⟨behind, counted, _⟩ := Jitlog.extends_of_forest? known
  obtain ⟨before, past, _⟩ := Jitlog.extends_of_forest? counted
  have onlySwapped : ∀ record ∈ order, record.ticks?.isSome :=
    fun record member => only record (same.subset member)
  have front := forest?_counters past only
  have back := forest?_counters past onlySwapped
  rw [behindCounters_perm same.symm] at back
  obtain ⟨last, further, rfl, again⟩ := exists_forest?_of_anomalies front back known
  cases knownOther.symm.trans again
  refine ⟨before, last, further.reverse, past, ?_, ?_⟩
  · simpa [withAnomalies, Journal.toList] using alike
  · simpa [withAnomalies, Journal.toList] using alikeOther

end Forest
end RuntimeLog
