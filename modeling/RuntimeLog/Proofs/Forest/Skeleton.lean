import RuntimeLog.Proofs.Forest.Alike

/-!
# Skeletons

The skeleton of a forest is its structure: the traces and the indexes, without counts,
aborts, patches and source lines, at no time and at no place.  What a record does to the
skeleton, and whether it is refused, only depends on the skeleton.  Utility records leave
it alone.
-/

namespace RuntimeLog

open RuntimeLog.Update

/-- The structure of a trace: all but what was counted and whether it was aborted. -/
def Trace.skeleton (trace : Trace) : Trace :=
  { trace with enterCount := 0, pointCounts := ∅, aborted := false }

namespace Forest

/-- The structure of a forest.  Of the fault it keeps all but its place. -/
def skeleton (forest : Forest) : Forest :=
  { forest with
    traces := ⟨forest.traces.newestFirst.map Trace.skeleton⟩
    patches := .empty
    sourceCache := .empty
    time := 0
    decodedUntil := 0
    anomalies := .empty
    fault := forest.fault.map Fault.placeless }

/-- The mask which hides all but the structure. -/
def skeletonMask : Mask where
  enterCount _ := 0
  enterCount_start := rfl
  pointCounts _ := ∅
  pointCounts_start := rfl
  aborted _ := false
  aborted_start := rfl
  header := id
  patches _ := .empty
  sourceCache _ := .empty
  time _ := 0
  decodedUntil _ := 0
  fault := Option.map Fault.placeless
  older := []

variable {left right forest next : Forest} {record : Jitlog.Record} {offset : Nat}

/-- Under the mask there is the skeleton with the anomalies. -/
theorem mask_skeletonMask (forest : Forest) :
    forest.mask skeletonMask =
      forest.skeleton.disguise (.noted forest.anomalies.newestFirst) := by
  have anomalies : forest.anomalies.newestFirst ++ skeletonMask.older =
      forest.anomalies.newestFirst := List.append_nil _
  unfold mask
  rw [anomalies]
  rfl

/-! ## Look-ups -/

theorem currentLayout_skeleton (forest : Forest) :
    forest.skeleton.currentLayout = forest.currentLayout :=
  calc
    forest.skeleton.currentLayout = (forest.mask skeletonMask).currentLayout := by
      rw [mask_skeletonMask]
      rfl
    _ = forest.currentLayout := currentLayout_mask forest

/-- The point to which a counter is credited is not masked. -/
theorem creditedPoint?_mask (cover : Mask) (forest : Forest) (number : UInt64) (kind : UInt8) :
    (forest.mask cover).creditedPoint? number kind = forest.creditedPoint? number kind := by
  have counted : (forest.mask cover).countedPoint? number kind =
      forest.countedPoint? number kind := by
    have last (origin : TracePoint) :
        (forest.mask cover).lastTarget? origin = forest.lastTarget? origin := by
      unfold lastTarget?
      rw [trace?_mask]
      cases forest.trace? origin.trace <;> rfl
    unfold countedPoint?
    simp only [last]
    rfl
  unfold creditedPoint?
  simp only [trace?_mask, counted, Option.isSome_map]
  cases forest.trace? number <;> rfl

theorem creditedPoint?_skeleton (forest : Forest) (number : UInt64) (kind : UInt8) :
    forest.skeleton.creditedPoint? number kind = forest.creditedPoint? number kind :=
  calc
    forest.skeleton.creditedPoint? number kind =
        (forest.mask skeletonMask).creditedPoint? number kind := by
      rw [mask_skeletonMask]
      rfl
    _ = forest.creditedPoint? number kind := creditedPoint?_mask _ forest number kind

theorem creditedPoint?_of_skeleton
    (same : right.skeleton = left.skeleton)
    (number : UInt64)
    (kind : UInt8) :
    right.creditedPoint? number kind = left.creditedPoint? number kind := by
  rw [← creditedPoint?_skeleton, same, creditedPoint?_skeleton]

theorem isSome_trace?_skeleton (forest : Forest) (id : UInt64) :
    (forest.skeleton.trace? id).isSome = (forest.trace? id).isSome :=
  calc
    (forest.skeleton.trace? id).isSome = ((forest.mask skeletonMask).trace? id).isSome := by
      rw [mask_skeletonMask]
      rfl
    _ = (forest.trace? id).isSome := by rw [trace?_mask, Option.isSome_map]

/-! ## Records about the structure -/

/-- Forests which are the same under anomalies have the same skeleton. -/
theorem skeleton_of_disguise
    {bare : Forest}
    {older : List Anomaly}
    (same : forest.mask skeletonMask = bare.disguise (.noted older)) :
    forest.skeleton = { bare with anomalies := .empty } ∧
      forest.anomalies.newestFirst = bare.anomalies.newestFirst ++ older := by
  rw [mask_skeletonMask] at same
  exact ⟨congrArg (fun forest : Forest => { forest with anomalies := .empty }) same,
    congrArg (fun forest : Forest => forest.anomalies.newestFirst) same⟩

/-- A record about the structure which is applied to a forest is applied to every other
one with the same skeleton: it does the same to the structure, and the same anomalies are
noted. -/
theorem exists_apply_of_skeleton
    (structural : record.isUtility = false)
    (same : right.skeleton = left.skeleton)
    (applied : (Jitlog.apply offset record).run left = .ok () next)
    (other : Nat) :
    ∃ after noted, (Jitlog.apply other record).run right = .ok () after ∧
      after.skeleton = next.skeleton ∧
      next.anomalies.newestFirst = noted ++ left.anomalies.newestFirst ∧
      after.anomalies.newestFirst = noted ++ right.anomalies.newestFirst := by
  have masks := @ignores_mask skeletonMask record structural other
  have disguises (older : List Anomaly) := @ignores_apply (.noted older) other record
  -- what the record does to the skeleton
  have masked := masks.run_eq_ok (Jitlog.apply_offset applied other)
  rw [mask_skeletonMask] at masked
  obtain ⟨bare, ran, leftSame⟩ := (disguises _).exists_ok masked
  -- and what this means to the other forest
  rw [← same] at ran
  have dressed := (disguises right.anomalies.newestFirst).run_eq_ok ran
  rw [← mask_skeletonMask] at dressed
  obtain ⟨after, made, rightSame⟩ := masks.exists_ok dressed
  obtain ⟨leftSkeleton, leftAnomalies⟩ := skeleton_of_disguise leftSame
  obtain ⟨rightSkeleton, rightAnomalies⟩ := skeleton_of_disguise rightSame.symm
  exact ⟨after, bare.anomalies.newestFirst, made, rightSkeleton.trans leftSkeleton.symm,
    leftAnomalies, rightAnomalies⟩

/-- A record which is refused by a forest is refused by every other one with the same
skeleton, for the same reason. -/
theorem exists_error_of_skeleton
    {error : DecodeError}
    (structural : record.isUtility = false)
    (same : right.skeleton = left.skeleton)
    (failed : (Jitlog.apply offset record).run left = .error error next)
    (other : Nat) :
    ∃ cause after, (Jitlog.apply other record).run right = .error cause after ∧
      cause.placeless = error.placeless := by
  have masks := @ignores_mask skeletonMask record structural other
  have disguises (older : List Anomaly) := @ignores_apply (.noted older) other record
  obtain ⟨cause, refused, reasons⟩ := Jitlog.exists_error_of_offset failed other
  have masked := masks.run_eq_error refused
  rw [mask_skeletonMask] at masked
  obtain ⟨bare, ran, _⟩ := (disguises _).exists_error masked
  rw [← same] at ran
  have dressed := (disguises right.anomalies.newestFirst).run_eq_error ran
  rw [← mask_skeletonMask] at dressed
  obtain ⟨after, made, _⟩ := masks.exists_error dressed
  exact ⟨cause, after, made, reasons⟩

/-! ## Utility records -/

/-- A change of a trace which keeps its structure keeps the skeleton. -/
theorem skeleton_modifyTrace
    {change : Trace → Trace}
    (same : ∀ trace, (change trace).skeleton = trace.skeleton)
    (forest : Forest)
    (id : UInt64) :
    (forest.modifyTrace id change).skeleton = forest.skeleton := by
  have kept := @Journal.map_newestFirst_modify _ _ _ (fun trace => trace.id == id) change same
    forest.traces
  unfold modifyTrace skeleton
  dsimp only
  rw [kept]

theorem skeleton_addCounter (number : UInt64) (kind : UInt8) (count : UInt64) :
    (forest.addCounter number kind count).skeleton = forest.skeleton := by
  unfold addCounter
  split
  · rename_i point _
    refine skeleton_modifyTrace (fun trace => ?_) forest point.trace
    cases point.operation <;> rfl
  · rfl

theorem skeleton_abortTrace (id : UInt64) :
    (forest.abortTrace id).skeleton = forest.skeleton := by
  unfold abortTrace
  split
  · exact skeleton_modifyTrace (by intro _; rfl) forest id
  · rfl

end Forest
end RuntimeLog
