import RuntimeLog.Proofs.Forest.CounterOrder
import RuntimeLog.Proofs.Forest.Totals
import RuntimeLog.Stream.Zstd.Decoder

/-!
# Conservation of ticks

The ticks of every counter of a trace log are credited to one place, and none of them
get lost unless a count saturates.  The order of counters which follow each other is
of no consequence.
-/

namespace RuntimeLog
namespace Forest

open Jitlog (History)

/-- A forest which keeps the ticks of all counters. -/
structure Keeps (history : History) (forest : Forest) : Prop where
  /-- Every count is the sum of the ticks which were credited to its point, cut once,
  and the counters which were credited to no point are noted. -/
  counts : Counts history forest
  /-- As long as nothing saturates, the counts and the unattributed ticks add up to the
  ticks of all counters. -/
  total :
    (∀ point, Ticks.exactSum (history.ticksAt (some point)) < UInt64.size) →
      Ticks.exactSum (forest.countEntries.map Prod.snd) +
          Ticks.exactSum (forest.unattributed.filterMap Anomaly.unattributed?) =
        Ticks.exactSum history.allTicks

/-- A log whose ticks are conserved in the forest to which it decodes. -/
structure ConservesTicks
    [Stream.Decompressor]
    (log : Bytes)
    (chunk : Nat)
    (forest : Forest) : Prop where
  /-- Every counter is credited to one place, and only the time and the offset change
  besides. -/
  credited : ∀ {history : History} {reader later : LogReader Jitlog.format} {marker kind : UInt8}
      {offset : Nat} {number count : UInt64},
    LogReader.Reached (.ofBytes log) chunk history reader →
    reader.Takes marker offset (.counter number kind count) later →
      Credits reader.model later.model number kind count (history.credited? number kind) ∧
        later.model.time = reader.model.time + 1
  /-- The ticks of the decoded counters are kept at all times. -/
  kept : ∀ {history : History} {reader : LogReader Jitlog.format},
    LogReader.Reached (.ofBytes log) chunk history reader → Keeps history reader.model
  /-- They are also kept in the end. -/
  ended : ∃ (history : History) (reader : LogReader Jitlog.format),
    LogReader.Reached (.ofBytes log) chunk history reader ∧ reader.model = forest
  /-- Counters which follow an uncompressed log may come in any order. -/
  reordered : ¬ Stream.Zstd.magic <+: log → AllowsAnyOrder log forest
  /-- Whatever carries the logs, a reader of the same records with the counters of a run
  in another order ends in a forest which is alike, but for the order of the anomalies of
  these. -/
  permuted : ∀ {source : Stream.Source} {size : Nat} {reader other : LogReader Jitlog.format}
      {older newer counters order : History},
    (∀ record ∈ counters, record.ticks?.isSome) →
    order.Perm counters →
    LogReader.Reached (.ofBytes log) chunk (newer ++ (counters.reverse ++ older)) reader →
    LogReader.Reached source size (newer ++ (order.reverse ++ older)) other →
      ∃ (before last : Forest) (further : List Anomaly),
        older.forest? reader.header = some before ∧
        (last.withAnomalies
          (before.anomalies.toList ++ counters.filterMap before.noted? ++ further)).Alike
            reader.model ∧
        (last.withAnomalies
          (before.anomalies.toList ++ order.filterMap before.noted? ++ further)).Alike
            other.model

/-- In every state of a reader the forest keeps the ticks of the decoded counters. -/
theorem keeps_of_reached
    [Stream.Decompressor]
    {source : Stream.Source}
    {chunk : Nat}
    {history : History}
    {reader : LogReader Jitlog.format}
    (reached : LogReader.Reached source chunk history reader) :
    Keeps history reader.model where
  counts := counts_of_reached reached
  total := (counts_of_reached reached).exactSum_eq (tracks_of_reached reached)

/-- A trace log which decodes without a fault conserves the ticks of its counters. -/
theorem conservesTicks_of_decodeSource
    [Stream.Decompressor]
    {log : Bytes}
    {chunk : Nat}
    {forest : Forest}
    (decoded : Jitlog.format.decodeSource (.ofBytes log) chunk = .ok (.ok forest))
    (sound : forest.fault = none) :
    ConservesTicks log chunk forest where
  credited reached taken := (charts_of_reached reached).credits_of_takes taken
  kept reached := keeps_of_reached reached
  ended := by
    obtain ⟨reader, answered, ended⟩ := LogReader.decodeSource_eq_ok_iff.mp decoded
    obtain ⟨records, last, _, reached, same, _⟩ :=
      LogReader.exists_reached_of_readToEnd answered ended
    exact ⟨records.reverse, last, reached, same⟩
  reordered plain := allowsAnyOrder_of_decodeSource plain decoded sound
  permuted only same reached swapped := exists_alike_of_counters only same reached swapped

attribute [local instance] Stream.Zstd.decompressor

/-- The log with redirects conserves its ticks: those of the bridges are counted in
the trace to which the label leads last, and those of two counters nowhere. -/
theorem conservesTicks_of_redirectedLog :
    ∃ forest : Forest,
      Jitlog.format.decodeSource (.ofBytes redirectedLog) 16 = .ok (.ok forest) ∧
      forest.fault = none ∧
      ConservesTicks redirectedLog 16 forest ∧
      ∃ reader : LogReader Jitlog.format,
        LogReader.Reached (.ofBytes redirectedLog) 16 redirectedRecords.reverse reader ∧
        reader.model.count? (.entry 2) = some 10 ∧
        reader.model.count? redirectedLabel = some 2 ∧
        reader.model.unattributed =
          [.unattributedCounter 9 bridgeCounter 4, .unattributedCounter 8 labelCounter 1] := by
  have written : redirectedLog = (Jitlog.write stitchedHeader redirectedRecords).toBytes := by
    rw [Jitlog.toBytes_write]
    rfl
  have begins : stitchedHeader.Begins Jitlog.formatFlag := ⟨rfl, ⟨by decide, by decide⟩, by decide⟩
  have writable : ∀ record ∈ redirectedRecords,
      record.Writable stitchedHeader.words stitchedHeader.version := by decide
  have others : ∀ record ∈ redirectedRecords, record.marker ≠ .mergePoint := by decide
  obtain ⟨opener, answered, _, ended⟩ :=
    Jitlog.exists_replays begins writable (Jitlog.followsLayouts_of_others others _) [] 16
  rw [List.append_nil, ← written] at answered
  have decoded := LogReader.decodeSource_eq_ok_iff.mpr ⟨opener, answered, ended (.inl rfl)⟩
  have sound : (Jitlog.replay stitchedHeader redirectedRecords).model.fault = none :=
    (Jitlog.fault_replay rfl _ _).mpr rfl
  have conserves := conservesTicks_of_decodeSource decoded sound
  obtain ⟨reader, reached⟩ := reached_redirectedLog
  have counts := (conserves.kept reached).counts
  refine ⟨_, decoded, sound, conserves, reader, reached, ?_, ?_, ?_⟩
  · rw [counts.entries]
    decide
  · rw [redirectedLabel, counts.operations]
    decide
  · rw [counts.unattributed]
    decide

end Forest
end RuntimeLog
