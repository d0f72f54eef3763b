import Mathlib.Data.List.Nodup
import RuntimeLog.Proofs.Forest.Tallies

/-!
# Totals of forests

As long as nothing saturates, no ticks get lost: those which are counted at all
points, with the unattributed ones, are the ticks of all counters.
-/

namespace RuntimeLog

/-- The sum of cut sums is the sum of everything, as long as nothing is cut. -/
theorem Ticks.exactSum_map_cut
    {κ : Type}
    {ticks : κ → List UInt64}
    {keys : List κ}
    (fits : ∀ key ∈ keys, exactSum (ticks key) < UInt64.size) :
    exactSum (keys.map fun key => cut (exactSum (ticks key))) = exactSum (keys.flatMap ticks) := by
  induction keys with
  | nil => rfl
  | cons key keys inductionHypothesis =>
      obtain ⟨first, others⟩ := List.forall_mem_cons.mp fits
      have uncut : (cut (exactSum (ticks key))).toNat = exactSum (ticks key) := by
        rw [toNat_cut]
        omega
      rw [List.map_cons, exactSum, uncut, inductionHypothesis others, List.flatMap_cons,
        exactSum_append]

namespace Trace

variable {trace : Trace}

/-- The entry and the counted operations of a trace, with their counts. -/
def countEntries (trace : Trace) : List (Option OpRef × UInt64) :=
  (none, trace.enterCount) :: trace.pointCounts.toList.map fun entry => (some entry.1, entry.2)

/-- The counts of a trace are those which are looked up in it. -/
theorem mem_countEntries_iff {operation : Option OpRef} {count : UInt64} :
    (operation, count) ∈ trace.countEntries ↔ trace.tally.count? operation = some count := by
  unfold countEntries
  rw [List.mem_cons, List.mem_map]
  cases operation with
  | none => simp [Tally.count?, tally, eq_comm]
  | some ref =>
      simp [Tally.count?, tally]

/-- Everything is counted once in a trace. -/
theorem nodup_countEntries (trace : Trace) : (trace.countEntries.map Prod.fst).Nodup := by
  unfold countEntries
  rw [List.map_cons, List.map_map, List.nodup_cons]
  constructor
  · simp
  · refine List.pairwise_map.mpr (trace.pointCounts.distinct_keys_toList.imp ?_)
    intro earlier later distinct same
    exact distinct (Std.LawfulEqCmp.compare_eq_iff_eq.mpr (Option.some.inj same))

end Trace

namespace Forest

open Jitlog (Credit History)

variable {past : History} {forest : Forest}

/-- The points at which something is counted, with their counts. -/
def countEntries (forest : Forest) : List (TracePoint × UInt64) :=
  forest.traces.toList.flatMap fun trace =>
    trace.countEntries.map fun entry => ({ trace := trace.id, operation := entry.1 }, entry.2)

/-- The counts of a forest are those which are looked up in it. -/
theorem Tracks.mem_countEntries_iff
    (tracks : Tracks past.summary forest.outline)
    {point : TracePoint}
    {count : UInt64} :
    (point, count) ∈ forest.countEntries ↔ forest.count? point = some count := by
  unfold countEntries count? tally?
  rw [List.mem_flatMap, Option.bind_map]
  constructor
  · rintro ⟨trace, member, counted⟩
    obtain ⟨⟨operation, count⟩, inside, same⟩ := List.mem_map.mp counted
    cases same
    rw [tracks.trace?_of_mem member]
    exact Trace.mem_countEntries_iff.mp inside
  · intro counted
    obtain ⟨trace, found, inside⟩ := Option.bind_eq_some_iff.mp counted
    have own : trace.id = point.trace := by simpa using List.find?_some found
    refine ⟨trace, List.mem_reverse.mpr (List.mem_of_find?_eq_some found), ?_⟩
    refine List.mem_map.mpr ⟨(point.operation, count), Trace.mem_countEntries_iff.mpr inside, ?_⟩
    rw [own]

/-- Everything is counted once in a forest. -/
theorem Tracks.nodup_countEntries (tracks : Tracks past.summary forest.outline) :
    (forest.countEntries.map Prod.fst).Nodup := by
  have ids : (forest.traces.toList.map Trace.id).Nodup := by
    have same : forest.traces.toList.map Trace.id = past.started := tracks.ids
    rw [same]
    exact tracks.distinct
  unfold countEntries
  rw [List.map_flatMap, List.nodup_flatMap]
  constructor
  · intro trace _
    have distinct : Function.Injective (TracePoint.mk trace.id) := fun _ _ same =>
      congrArg TracePoint.operation same
    have points := trace.nodup_countEntries.map distinct
    rw [List.map_map] at points ⊢
    exact points
  · refine (List.pairwise_map.mp ids).imp ?_
    intro earlier later different point inEarlier inLater
    simp only [List.mem_map] at inEarlier inLater
    obtain ⟨_, ⟨_, _, rfl⟩, rfl⟩ := inEarlier
    obtain ⟨_, ⟨_, _, rfl⟩, same⟩ := inLater
    exact different (congrArg TracePoint.trace same).symm

/-- What is counted at a point is the sum of what was credited to it, cut once. -/
theorem Counts.eq_of_count?
    (counts : Counts past forest)
    {point : TracePoint}
    {count : UInt64}
    (counted : forest.count? point = some count) :
    count = Ticks.cut (Ticks.exactSum (past.ticksAt (some point))) := by
  obtain ⟨id, operation⟩ := point
  cases operation with
  | none =>
      have known := counted.symm.trans (counts.entries id)
      split at known
      · exact Option.some.inj known
      · cases known
  | some ref =>
      have known := counted.symm.trans (counts.operations id ref)
      split at known
      · cases known
      · exact Option.some.inj known

/-- Something is counted at every point to which a counter was credited. -/
theorem Counts.isSome_count?
    (counts : Counts past forest)
    {credit : Credit}
    (member : credit ∈ past.credits)
    {point : TracePoint}
    (placed : credit.place = some point) :
    (forest.count? point).isSome := by
  have started := counts.started credit member point placed
  have ticks : past.ticksAt (some point) ≠ [] :=
    List.ne_nil_of_mem
      (List.mem_map_of_mem (List.mem_filter.mpr ⟨member, decide_eq_true placed⟩))
  obtain ⟨id, operation⟩ := point
  cases operation with
  | none =>
      have known := counts.entries id
      rw [if_pos started] at known
      exact Option.isSome_of_eq_some known
  | some ref =>
      rw [counts.operations, if_neg ticks]
      rfl

/-- The unattributed ticks are those which were credited to no point. -/
theorem Counts.filterMap_unattributed (counts : Counts past forest) :
    forest.unattributed.filterMap Anomaly.unattributed? = past.ticksAt none := by
  rw [counts.unattributed, List.filterMap_map]
  exact congrFun List.filterMap_eq_map _

/-- No ticks get lost as long as no count saturates. -/
theorem Counts.exactSum_eq
    (counts : Counts past forest)
    (tracks : Tracks past.summary forest.outline)
    (fits : ∀ point, Ticks.exactSum (past.ticksAt (some point)) < UInt64.size) :
    Ticks.exactSum (forest.countEntries.map Prod.snd) +
        Ticks.exactSum (forest.unattributed.filterMap Anomaly.unattributed?) =
      Ticks.exactSum past.allTicks := by
  have cuts : forest.countEntries.map Prod.snd =
      (forest.countEntries.map Prod.fst).map fun point =>
        Ticks.cut (Ticks.exactSum (past.ticksAt (some point))) := by
    rw [List.map_map]
    apply List.map_congr_left
    rintro ⟨point, count⟩ member
    exact counts.eq_of_count? (tracks.mem_countEntries_iff.mp member)
  have covered : ∀ credit ∈ past.credits, ∀ point,
      credit.place = some point → point ∈ forest.countEntries.map Prod.fst := by
    intro credit member point placed
    obtain ⟨count, counted⟩ := Option.isSome_iff_exists.mp (counts.isSome_count? member placed)
    exact List.mem_map_of_mem (tracks.mem_countEntries_iff.mpr counted)
  rw [cuts, Ticks.exactSum_map_cut fun point _ => fits point, counts.filterMap_unattributed,
    Nat.add_comm]
  exact History.exactSum_ticksAt tracks.nodup_countEntries covered

end Forest
end RuntimeLog
