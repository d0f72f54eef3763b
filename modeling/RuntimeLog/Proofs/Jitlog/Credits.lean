import Mathlib.Data.List.Nodup
import Mathlib.Data.List.Perm.Basic
import Mathlib.Data.Option.Basic
import RuntimeLog.Proofs.Jitlog.Attachments
import RuntimeLog.Proofs.Ticks

/-!
# Credits of counters

What a history tells about the ticks of its counters: each of them is credited to one
point or to none.  The ticks at all points, with those at none, are the ticks of all
counters.
-/

namespace RuntimeLog
namespace Jitlog

/-- The ticks of a counter, and what they are credited to. -/
structure Credit where
  /-- The address of the counter. -/
  number : UInt64
  kind : UInt8
  count : UInt64
  /-- The point which is credited.  There is none if the counter matches no trace. -/
  place : Option TracePoint
deriving DecidableEq, Repr

/-- The anomaly of a counter which matches no trace. -/
def Credit.anomaly (credit : Credit) : Anomaly :=
  .unattributedCounter credit.number credit.kind credit.count

/-- The ticks of a counter. -/
def Record.ticks? : Record → Option UInt64
  | counter _ _ count => some count
  | _ => none

namespace History

/-- The point which a counter of some kind counts, for the number of a descriptor:
the first label of the descriptor, the last counter behind an operation of it, or
the trace to which its point leads last, which is the point itself while nothing is
attached to it. -/
def counted? (history : History) (descriptor : UInt64) (kind : UInt8) : Option TracePoint :=
  if kind = Forest.labelCounter then history.summary.firstNamed? Forest.labelName descriptor
  else if kind = Forest.entryCounter then history.summary.counter? descriptor
  else if kind = Forest.bridgeCounter then
    (history.summary.registered? descriptor).map fun origin =>
      (history.lastTarget? origin).elim origin TracePoint.entry
  else none

/-- The point to which a counter is credited.  A trace with its number comes first. -/
def credited? (history : History) (number : UInt64) (kind : UInt8) : Option TracePoint :=
  if number ∈ history.started then some (.entry number) else history.counted? number kind

/-- The credit of a record behind a history. -/
def credit? (earlier : History) : Record → Option Credit
  | .counter number kind count =>
      some { number, kind, count, place := earlier.credited? number kind }
  | _ => none

/-- The credits of all counters, oldest first. -/
def credits : History → List Credit
  | [] => []
  | record :: earlier => credits earlier ++ (credit? earlier record).toList

/-- The ticks which were credited to a place, oldest first. -/
def ticksAt (history : History) (place : Option TracePoint) : List UInt64 :=
  (history.credits.filter fun credit => credit.place = place).map Credit.count

/-- The ticks of all counters, newest first. -/
def allTicks (history : History) : List UInt64 :=
  history.filterMap Record.ticks?

variable {history : History} {record : Record} {place : Option TracePoint}

@[simp] theorem credits_cons (record : Record) (history : History) :
    credits (record :: history) = history.credits ++ (history.credit? record).toList := rfl

/-- Ticks stay where they were credited, and those of a counter are added at its
place. -/
theorem ticksAt_counter (number count : UInt64) (kind : UInt8) (history : History) :
    ticksAt (.counter number kind count :: history) place =
      if history.credited? number kind = place then history.ticksAt place ++ [count]
      else history.ticksAt place := by
  unfold ticksAt
  rw [credits_cons, credit?, Option.toList_some, List.filter_append]
  by_cases here : history.credited? number kind = place <;> simp [here]

/-- Ticks stay where they were credited while no counter follows. -/
theorem ticksAt_of_uncredited (uncredited : history.credit? record = none) :
    ticksAt (record :: history) place = history.ticksAt place := by
  unfold ticksAt
  rw [credits_cons, uncredited, Option.toList_none, List.append_nil]

/-- A record is credited if it is a counter, and with its ticks. -/
theorem map_count_credit? (history : History) (record : Record) :
    (history.credit? record).map Credit.count = record.ticks? := by
  cases record <;> rfl

/-- The credits are those of the counters, one for each. -/
theorem map_count_credits (history : History) :
    history.credits.map Credit.count = history.allTicks.reverse := by
  induction history with
  | nil => rfl
  | cons record earlier inductionHypothesis =>
      have ticks := map_count_credit? earlier record
      rw [credits_cons, List.map_append, inductionHypothesis]
      unfold allTicks
      rw [List.filterMap_cons, ← ticks]
      cases credited : credit? earlier record with
      | none => simp
      | some credit => simp

/-! ## Ticks at all places -/

/-- The entries of a list come in the order of their keys when they are gathered key
by key. -/
theorem flatMap_filter_perm
    {α κ : Type}
    [DecidableEq κ]
    (key : α → κ)
    {keys : List κ}
    (distinct : keys.Nodup)
    {entries : List α}
    (covered : ∀ entry ∈ entries, key entry ∈ keys) :
    (keys.flatMap fun chosen => entries.filter fun entry => key entry = chosen).Perm entries := by
  induction keys generalizing entries with
  | nil =>
      cases entries with
      | nil => exact .nil
      | cons entry entries => exact absurd (covered entry List.mem_cons_self) List.not_mem_nil
  | cons first keys inductionHypothesis =>
      obtain ⟨new, distinct⟩ := List.nodup_cons.mp distinct
      have others : (keys.flatMap fun chosen => entries.filter fun entry => key entry = chosen) =
          keys.flatMap fun chosen =>
            (entries.filter fun entry => ¬ key entry = first).filter fun entry =>
              key entry = chosen := by
        apply List.flatMap_congr
        intro chosen member
        rw [List.filter_filter]
        apply List.filter_congr
        intro entry _
        have different : chosen ≠ first := fun same => new (same ▸ member)
        by_cases here : key entry = chosen <;> simp [here, different]
      have rest : ∀ entry ∈ entries.filter fun entry => ¬ key entry = first,
          key entry ∈ keys := by
        intro entry member
        obtain ⟨inside, other⟩ := List.mem_filter.mp member
        exact (List.mem_cons.mp (covered entry inside)).resolve_left (of_decide_eq_true other)
      rw [List.flatMap_cons, others]
      refine ((inductionHypothesis distinct rest).append_left _).trans ?_
      simpa using List.filter_append_perm (fun entry => decide (key entry = first)) entries

/-- The ticks at none of the points and those at all of them are the ticks of all
counters. -/
theorem exactSum_ticksAt
    {points : List TracePoint}
    (distinct : points.Nodup)
    (covered : ∀ credit ∈ history.credits, ∀ point, credit.place = some point → point ∈ points) :
    Ticks.exactSum (history.ticksAt none) +
        Ticks.exactSum (points.flatMap fun point => history.ticksAt (some point)) =
      Ticks.exactSum history.allTicks := by
  have places : (none :: points.map some).Nodup := by
    refine List.nodup_cons.mpr ⟨by simp, ?_⟩
    exact List.Nodup.map (Option.some_injective _) distinct
  have all : ∀ credit ∈ history.credits, credit.place ∈ none :: points.map some := by
    intro credit member
    cases placed : credit.place with
    | none => exact List.mem_cons_self
    | some point =>
        exact List.mem_cons_of_mem _ (List.mem_map_of_mem (covered credit member point placed))
  have gathered := (flatMap_filter_perm Credit.place places all).map Credit.count
  rw [map_count_credits] at gathered
  have sums := Ticks.exactSum_perm (gathered.trans (List.reverse_perm _))
  rw [List.flatMap_cons, List.map_append, Ticks.exactSum_append, List.flatMap_map,
    List.map_flatMap] at sums
  exact sums

end History
end Jitlog
end RuntimeLog
