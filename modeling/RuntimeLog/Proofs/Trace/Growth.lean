import RuntimeLog.Proofs.Trace.Entries
import RuntimeLog.Trace.Basic

/-!
# Growth of traces

Logging adds to a trace and takes nothing away from it: its stages and their entries
keep their places, an operation gets its machine code and the trace its bounds once, and
counters only rise.
-/

namespace RuntimeLog

/-! ## Journals -/

namespace Journal

variable {α : Type} {related : α → α → Prop} {journal before middle after : Journal α}

/-- A journal which has the entries of an earlier one at their places, each of them as
far as a relation allows it to change. -/
def GrowsBy (related : α → α → Prop) (before after : Journal α) : Prop :=
  ∀ (place : Nat) entry, before.toList[place]? = some entry →
    ∃ later, after.toList[place]? = some later ∧ related entry later

theorem GrowsBy.refl (same : ∀ entry, related entry entry) (journal : Journal α) :
    journal.GrowsBy related journal :=
  fun _ entry found => ⟨entry, found, same entry⟩

theorem GrowsBy.trans
    (composed : ∀ {entry between later}, related entry between → related between later →
      related entry later)
    (first : before.GrowsBy related middle)
    (second : middle.GrowsBy related after) :
    before.GrowsBy related after := by
  intro place entry found
  obtain ⟨between, there, grown⟩ := first place entry found
  obtain ⟨later, behind, grownOn⟩ := second place between there
  exact ⟨later, behind, composed grown grownOn⟩

/-- A journal never gets shorter. -/
theorem GrowsBy.size_le (grows : before.GrowsBy related after) : before.size ≤ after.size := by
  refine Nat.le_of_not_lt fun shorter => ?_
  have inside : after.size < before.toList.length := by rwa [length_toList]
  obtain ⟨later, there, _⟩ := grows after.size _ (List.getElem?_eq_getElem inside)
  have beyond : after.toList[after.size]? = none :=
    List.getElem?_eq_none (Nat.le_of_eq (length_toList after))
  rw [beyond] at there
  cases there

/-- An appended entry moves no other one. -/
theorem growsBy_push
    (same : ∀ entry, related entry entry)
    (journal : Journal α)
    (entry : α) :
    journal.GrowsBy related (journal.push entry) := by
  intro place older found
  have inside := (List.getElem?_eq_some_iff.mp found).1
  exact ⟨older, by rw [toList_push, List.getElem?_append_left inside, found], same older⟩

/-- Journals of the same size grow together with their newest entries. -/
theorem GrowsBy.push
    {newest later : α}
    (grows : before.GrowsBy related after)
    (size : after.size = before.size)
    (grown : related newest later) :
    (before.push newest).GrowsBy related (after.push later) := by
  intro place entry found
  rw [toList_push] at found ⊢
  by_cases inside : place < before.toList.length
  · rw [List.getElem?_append_left inside] at found
    obtain ⟨there, known, related⟩ := grows place entry found
    exact ⟨there, by rw [List.getElem?_append_left (List.getElem?_eq_some_iff.mp known).1, known],
      related⟩
  · have last : place = before.toList.length := by
      have within := (List.getElem?_eq_some_iff.mp found).1
      rw [List.length_append, List.length_singleton] at within
      omega
    have equal : before.toList.length = after.toList.length := by
      rw [length_toList, length_toList, size]
    rw [last, List.getElem?_concat_length] at found
    cases found
    exact ⟨later, by rw [last, equal, List.getElem?_concat_length], grown⟩

theorem length_modifyNewestFirst (chosen : α → Bool) (change : α → α) (entries : List α) :
    (modifyNewestFirst chosen change entries).length = entries.length := by
  induction entries with
  | nil => rfl
  | cons entry older inductionHypothesis =>
      rw [modifyNewestFirst]
      split
      · rfl
      · rw [List.length_cons, inductionHypothesis, List.length_cons]

/-- A journal grows when the newest entry which passes a test does. -/
theorem growsBy_modify
    {chosen : α → Bool}
    {change : α → α}
    (same : ∀ entry, related entry entry)
    (grown : ∀ entry, journal.find? chosen = some entry → related entry (change entry)) :
    journal.GrowsBy related (journal.modify chosen change) := by
  obtain ⟨entries⟩ := journal
  induction entries with
  | nil => exact .refl same _
  | cons entry older inductionHypothesis =>
      have appended : (⟨entry :: older⟩ : Journal α) = (⟨older⟩ : Journal α).push entry := rfl
      by_cases passes : chosen entry
      · have changed : (⟨entry :: older⟩ : Journal α).modify chosen change =
            (⟨older⟩ : Journal α).push (change entry) := by
          rw [modify, modifyNewestFirst, if_pos passes]
          rfl
        rw [changed, appended]
        exact (GrowsBy.refl same _).push rfl (grown entry (List.find?_cons_of_pos passes))
      · have changed : (⟨entry :: older⟩ : Journal α).modify chosen change =
            ((⟨older⟩ : Journal α).modify chosen change).push entry := by
          rw [modify, modifyNewestFirst, if_neg passes]
          rfl
        rw [changed, appended]
        refine (inductionHypothesis fun other found => ?_).push
          (length_modifyNewestFirst chosen change older) (same entry)
        exact grown other ((List.find?_cons_of_neg passes).trans found)

/-- The newest entry is the one which is changed if it passes the test. -/
theorem modify_push
    {chosen : α → Bool}
    {newest : α}
    (passes : chosen newest)
    (journal : Journal α)
    (change : α → α) :
    (journal.push newest).modify chosen change = journal.push (change newest) := by
  rw [modify, push, modifyNewestFirst, if_pos passes]
  rfl

end Journal

/-! ## Stages -/

/-- An entry of a stage stays, but for the machine code of an operation without one. -/
inductive StageEntry.Grows : StageEntry → StageEntry → Prop
  | mergePoint (point : MergePoint) : Grows (.mergePoint point) (.mergePoint point)
  | operation
      (operation : Operation)
      (code : Option CodeSnippet)
      (kept : ∀ known, operation.code = some known → code = some known) :
      Grows (.operation operation) (.operation { operation with code })

theorem StageEntry.Grows.refl (entry : StageEntry) : entry.Grows entry := by
  cases entry with
  | operation operation => exact .operation operation operation.code fun _ known => known
  | mergePoint point => exact .mergePoint point

theorem StageEntry.Grows.trans
    {entry between later : StageEntry}
    (first : entry.Grows between)
    (second : between.Grows later) :
    entry.Grows later := by
  cases first with
  | mergePoint point => exact second
  | operation operation code kept =>
      cases second with
      | operation _ last keptOn =>
          exact .operation operation last fun known owns => keptOn known (kept known owns)

/-- A stage to whose entries others may have been appended. -/
structure Stage.Grows (before after : Stage) : Prop where
  kind : after.kind = before.kind
  entries : before.entries.GrowsBy StageEntry.Grows after.entries

namespace Stage

variable {stage : Stage}

theorem Grows.refl (stage : Stage) : stage.Grows stage where
  kind := rfl
  entries := .refl .refl _

theorem Grows.trans
    {between later : Stage}
    (first : stage.Grows between)
    (second : between.Grows later) :
    stage.Grows later where
  kind := second.kind.trans first.kind
  entries := first.entries.trans .trans second.entries

theorem grows_pushOperation (stage : Stage) (operation : Operation) :
    stage.Grows (stage.pushOperation operation) where
  kind := rfl
  entries := by
    rw [entries_pushOperation]
    exact Journal.growsBy_push .refl _ _

theorem grows_pushMergePoint (stage : Stage) (values : FieldValues) :
    stage.Grows (stage.pushMergePoint values) where
  kind := rfl
  entries := by
    rw [entries_pushMergePoint]
    exact Journal.growsBy_push .refl _ _

/-- What is found as the newest operation is the last one. -/
theorem lastOperation?_of_find?
    {entry : StageEntry}
    (found : stage.entries.find? (fun entry => entry.operation?.isSome) = some entry) :
    stage.lastOperation? = entry.operation? := by
  rw [lastOperation?_eq_findSome?]
  unfold Journal.find? at found
  generalize stage.entries.newestFirst = entries at found ⊢
  induction entries with
  | nil => cases found
  | cons newest older inductionHypothesis =>
      cases newest with
      | operation operation =>
          rw [List.find?_cons_of_pos rfl] at found
          cases found
          rfl
      | mergePoint point =>
          rw [List.find?_cons_of_neg Bool.false_ne_true] at found
          exact inductionHypothesis found

/-- Code is attached to an operation which has none. -/
theorem grows_attachCode
    {operation : Operation}
    (last : stage.lastOperation? = some operation)
    (bare : operation.code = none)
    (code : CodeSnippet) :
    stage.Grows (stage.attachCode code) where
  kind := rfl
  entries := by
    rw [entries_attachCode]
    refine Journal.growsBy_modify .refl fun entry found => ?_
    have newest : entry.operation? = some operation := (lastOperation?_of_find? found) ▸ last
    cases entry with
    | operation _ =>
        cases newest
        refine .operation operation (some code) fun known owns => ?_
        rw [bare] at owns
        cases owns
    | mergePoint _ => cases newest

end Stage

/-! ## Traces -/

/-- A count does not get smaller by adding to it. -/
theorem Ticks.le_add (count more : UInt64) : count ≤ add count more := by
  have below := count.toNat_lt_size
  rw [UInt64.le_iff_toNat_le, toNat_add]
  omega

namespace Trace

variable {trace : Trace}

/-- A trace without what records about other traces may still change: its links, its
counters and the mark of being aborted. -/
def body (trace : Trace) : Trace :=
  { trace with
    enterCount := 0
    pointCounts := ∅
    linksOut := .empty
    linksIn := .empty
    aborted := false }

/-- A trace to which records may have added. -/
structure Grows (before after : Trace) : Prop where
  id : after.id = before.id
  kind : after.kind = before.kind
  driver : after.driver = before.driver
  attachedDescriptor : after.attachedDescriptor = before.attachedDescriptor
  stages : before.stages.GrowsBy Stage.Grows after.stages
  bounds : ∀ known, before.bounds = some known → after.bounds = some known
  enterCount : before.enterCount ≤ after.enterCount
  pointCounts : ∀ (ref : OpRef) count, before.pointCounts[ref]? = some count →
    ∃ more, after.pointCounts[ref]? = some more ∧ count ≤ more
  aborted : before.aborted → after.aborted
  unrolled : before.unrolled → after.unrolled

theorem Grows.refl (trace : Trace) : trace.Grows trace where
  id := rfl
  kind := rfl
  driver := rfl
  attachedDescriptor := rfl
  stages := .refl .refl _
  bounds _ known := known
  enterCount := UInt64.le_refl _
  pointCounts _ count counted := ⟨count, counted, UInt64.le_refl _⟩
  aborted marked := marked
  unrolled marked := marked

theorem Grows.trans
    {between later : Trace}
    (first : trace.Grows between)
    (second : between.Grows later) :
    trace.Grows later where
  id := second.id.trans first.id
  kind := second.kind.trans first.kind
  driver := second.driver.trans first.driver
  attachedDescriptor := second.attachedDescriptor.trans first.attachedDescriptor
  stages := first.stages.trans .trans second.stages
  bounds known bounded := second.bounds known (first.bounds known bounded)
  enterCount := UInt64.le_trans first.enterCount second.enterCount
  pointCounts ref count counted := by
    obtain ⟨more, there, atLeast⟩ := first.pointCounts ref count counted
    obtain ⟨most, behind, still⟩ := second.pointCounts ref more there
    exact ⟨most, behind, UInt64.le_trans atLeast still⟩
  aborted marked := second.aborted (first.aborted marked)
  unrolled marked := second.unrolled (first.unrolled marked)

/-- A trace grows when one of its stages does. -/
theorem grows_modifyStage
    {kind : StageKind}
    {change : Stage → Stage}
    (grown : ∀ stage, trace.stage? kind = some stage → stage.Grows (change stage)) :
    trace.Grows (trace.modifyStage kind change) :=
  { Grows.refl trace with stages := Journal.growsBy_modify .refl grown }

/-- Stages are entered without leaving out any. -/
theorem grows_enterStage (trace : Trace) (kind : StageKind) :
    trace.Grows (trace.enterStage kind) := by
  unfold enterStage
  split
  · exact { Grows.refl trace with unrolled := fun _ => rfl }
  · refine { Grows.refl trace with stages := ?_ }
    dsimp only
    split
    · exact .refl .refl _
    · exact Journal.growsBy_push .refl _ _

/-- Bounds are set where there were none. -/
theorem grows_bounds (unknown : trace.bounds = none) (bounds : Option (UInt64 × UInt64)) :
    trace.Grows { trace with bounds } :=
  { Grows.refl trace with bounds := fun known bounded => by simp [unknown] at bounded }

/-- Counters rise. -/
theorem grows_count (trace : Trace) (operation : Option OpRef) (count : UInt64) :
    trace.Grows (trace.count operation count) := by
  cases operation with
  | none => exact { Grows.refl trace with enterCount := Ticks.le_add _ _ }
  | some ref =>
      refine { Grows.refl trace with pointCounts := fun other before counted => ?_ }
      dsimp only [Trace.count, countPoint]
      rw [Std.ExtTreeMap.getElem?_insert]
      split
      · rename_i same
        cases Std.LawfulEqCmp.eq_of_compare same
        refine ⟨_, rfl, ?_⟩
        rw [pointCount, Std.ExtTreeMap.getD_eq_getD_getElem?, counted]
        exact Ticks.le_add _ _
      · exact ⟨before, counted, UInt64.le_refl _⟩

/-- Counters are not part of the body of a trace. -/
theorem body_count (trace : Trace) (operation : Option OpRef) (count : UInt64) :
    (trace.count operation count).body = trace.body := by
  cases operation <;> rfl

end Trace
end RuntimeLog
