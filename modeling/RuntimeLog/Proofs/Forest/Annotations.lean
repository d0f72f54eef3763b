import RuntimeLog.Proofs.Forest.CounterOrder

/-!
# Annotated forests

A forest which is annotated has the same structure and the same anomalies as before, and
maybe some more.  Utility records annotate a forest.  Every record does the same to a
forest and to an annotated one.
-/

namespace RuntimeLog

/-- The anomaly as which a utility record is noted if what it is about is unknown. -/
def Jitlog.Record.complaint? : Jitlog.Record → Option Anomaly
  | counter number kind count => some (.unattributedCounter number kind count)
  | abortTrace id => some (.unknownAbortedTrace id)
  | _ => none

namespace Forest

open Jitlog (Record)

/-- The anomaly as which a utility record is noted. -/
def remarked? (forest : Forest) : Record → Option Anomaly
  | .abortTrace id =>
      if (forest.trace? id).isSome then none else some (.unknownAbortedTrace id)
  | record => forest.noted? record

/-- A forest to which nothing was added but some remarks: the structure is the same, all
anomalies are still there in their order, and all others are among the remarks. -/
structure Annotated (plain : Forest) (remarks : List Anomaly) (richer : Forest) : Prop where
  skeleton_eq : richer.skeleton = plain.skeleton
  sublist : plain.anomalies.toList.Sublist richer.anomalies.toList
  exists_perm : ∃ noted : List Anomaly, noted.Sublist remarks ∧
    richer.anomalies.toList.Perm (plain.anomalies.toList ++ noted)

variable {plain richer left right next after forest : Forest} {remarks : List Anomaly}
variable {record : Record} {offset : Nat}

/-! ## Remarks -/

@[simp] theorem remarked?_counter (forest : Forest) (number count : UInt64) (kind : UInt8) :
    forest.remarked? (.counter number kind count) =
      if forest.creditedPoint? number kind = none then
        some (.unattributedCounter number kind count)
      else none := rfl

@[simp] theorem remarked?_abortTrace (forest : Forest) (id : UInt64) :
    forest.remarked? (.abortTrace id) =
      if (forest.trace? id).isSome then none else some (.unknownAbortedTrace id) := rfl

/-- A utility record is noted if what it is about is unknown, and only then. -/
theorem remarked?_sublist (forest : Forest) (record : Record) :
    (forest.remarked? record).toList.Sublist record.complaint?.toList := by
  cases record with
  | counter number kind count =>
      rw [remarked?_counter]
      split
      · exact List.Sublist.refl _
      · exact List.nil_sublist _
  | abortTrace id =>
      rw [remarked?_abortTrace]
      split
      · exact List.nil_sublist _
      · exact List.Sublist.refl _
  | _ => exact List.nil_sublist _

/-- How a utility record is noted only depends on the structure. -/
theorem remarked?_of_skeleton (same : right.skeleton = left.skeleton) :
    right.remarked? record = left.remarked? record := by
  have started (id : UInt64) : (right.trace? id).isSome = (left.trace? id).isSome := by
    rw [← isSome_trace?_skeleton, same, isSome_trace?_skeleton]
  cases record with
  | counter number kind count =>
      rw [remarked?_counter, remarked?_counter, creditedPoint?_of_skeleton same]
  | abortTrace id => rw [remarked?_abortTrace, remarked?_abortTrace, started]
  | _ => rfl

theorem anomalies_addCounter (number count : UInt64) (kind : UInt8) :
    (forest.addCounter number kind count).anomalies.toList =
      forest.anomalies.toList ++ (forest.remarked? (.counter number kind count)).toList := by
  unfold addCounter
  rw [remarked?_counter]
  cases forest.creditedPoint? number kind with
  | none => exact Journal.toList_push _ _
  | some point => exact (List.append_nil _).symm

theorem anomalies_abortTrace (id : UInt64) :
    (forest.abortTrace id).anomalies.toList =
      forest.anomalies.toList ++ (forest.remarked? (.abortTrace id)).toList := by
  unfold abortTrace
  rw [remarked?_abortTrace]
  cases forest.trace? id with
  | none => exact Journal.toList_push _ _
  | some trace => exact (List.append_nil _).symm

/-- Utility records are always applied.  They leave the structure alone, and are noted if
what they are about is unknown. -/
theorem exists_apply_of_isUtility
    (utility : record.isUtility)
    (forest : Forest)
    (offset : Nat) :
    ∃ next, (Jitlog.apply offset record).run forest = .ok () next ∧
      next.skeleton = forest.skeleton ∧
      next.anomalies.toList = forest.anomalies.toList ++ (forest.remarked? record).toList := by
  cases record with
  | counter number kind count =>
      exact ⟨_, rfl, skeleton_addCounter number kind count, anomalies_addCounter number count kind⟩
  | abortTrace id => exact ⟨_, rfl, skeleton_abortTrace id, anomalies_abortTrace id⟩
  | sourceLines file lines => exact ⟨_, rfl, rfl, (List.append_nil _).symm⟩
  | patch address bytes => exact ⟨_, rfl, rfl, (List.append_nil _).symm⟩
  | _ => cases utility

/-! ## Steps -/

/-- A forest is annotated by nothing at first. -/
theorem Annotated.refl (forest : Forest) : forest.Annotated [] forest :=
  ⟨rfl, List.Sublist.refl _, [], List.Sublist.refl _, by rw [List.append_nil]⟩

/-- A forest stays annotated when the same is added on both sides. -/
theorem Annotated.of_append
    (annotated : plain.Annotated remarks richer)
    (same : after.skeleton = next.skeleton)
    {noted : List Anomaly}
    (left : next.anomalies.toList = plain.anomalies.toList ++ noted)
    (right : after.anomalies.toList = richer.anomalies.toList ++ noted) :
    next.Annotated remarks after := by
  obtain ⟨_, sublist, added, among, perm⟩ := annotated
  refine ⟨same, ?_, added, among, ?_⟩
  · rw [left, right]
    exact sublist.append_right noted
  · rw [left, right, List.append_assoc]
    calc
      (richer.anomalies.toList ++ noted).Perm
          (plain.anomalies.toList ++ added ++ noted) := perm.append_right noted
      List.Perm _ (plain.anomalies.toList ++ (noted ++ added)) := by
        rw [List.append_assoc]
        exact List.perm_append_comm.append_left _

/-- Whatever is applied to a forest is applied to an annotated one, and does the same. -/
theorem Annotated.apply
    (annotated : plain.Annotated remarks richer)
    (applied : (Jitlog.apply offset record).run plain = .ok () next)
    (other : Nat) :
    ∃ after, (Jitlog.apply other record).run richer = .ok () after ∧
      next.Annotated remarks after := by
  have same := annotated.skeleton_eq
  by_cases utility : record.isUtility
  · obtain ⟨made, there, leftSkeleton, leftAnomalies⟩ :=
      exists_apply_of_isUtility utility plain offset
    obtain ⟨after, here, rightSkeleton, rightAnomalies⟩ :=
      exists_apply_of_isUtility utility richer other
    cases applied.symm.trans there
    rw [remarked?_of_skeleton same] at rightAnomalies
    refine ⟨after, here, annotated.of_append ?_ leftAnomalies rightAnomalies⟩
    rw [leftSkeleton, rightSkeleton, same]
  · obtain ⟨after, noted, here, skeletons, leftAnomalies, rightAnomalies⟩ :=
      exists_apply_of_skeleton (Bool.eq_false_iff.mpr utility) same applied other
    refine ⟨after, here, @annotated.of_append _ _ _ _ _ skeletons noted.reverse ?_ ?_⟩
    · rw [Journal.toList, leftAnomalies, List.reverse_append]
      rfl
    · rw [Journal.toList, rightAnomalies, List.reverse_append]
      rfl

/-- Whatever is refused by a forest is refused by an annotated one, for the same
reason. -/
theorem Annotated.exists_error
    {error : DecodeError}
    (annotated : plain.Annotated remarks richer)
    (failed : (Jitlog.apply offset record).run plain = .error error next)
    (other : Nat) :
    ∃ cause after, (Jitlog.apply other record).run richer = .error cause after ∧
      cause.placeless = error.placeless := by
  have structural : record.isUtility = false := by
    rw [Bool.eq_false_iff]
    intro utility
    obtain ⟨_, made, _⟩ := exists_apply_of_isUtility utility plain offset
    cases failed.symm.trans made
  exact exists_error_of_skeleton structural annotated.skeleton_eq failed other

/-- A utility record annotates a forest. -/
theorem Annotated.insert
    (annotated : plain.Annotated remarks richer)
    (utility : record.isUtility)
    (offset : Nat) :
    ∃ after, (Jitlog.apply offset record).run richer = .ok () after ∧
      plain.Annotated (remarks ++ record.complaint?.toList) after := by
  obtain ⟨same, sublist, added, among, perm⟩ := annotated
  obtain ⟨after, made, skeleton, anomalies⟩ := exists_apply_of_isUtility utility richer offset
  refine ⟨after, made, skeleton.trans same, ?_, added ++ (richer.remarked? record).toList,
    among.append (richer.remarked?_sublist record), ?_⟩
  · rw [anomalies]
    exact sublist.trans (List.sublist_append_left _ _)
  · rw [anomalies, ← List.append_assoc]
    exact perm.append_right _

/-- It makes no difference where records end. -/
theorem Annotated.advance (annotated : plain.Annotated remarks richer) (behind other : Nat) :
    (Jitlog.format.advance plain behind).Annotated remarks (Jitlog.format.advance richer other) :=
  ⟨annotated.skeleton_eq, annotated.sublist, annotated.exists_perm⟩

/-- Nor does it make a difference that a record ended. -/
theorem Annotated.advance_right (annotated : plain.Annotated remarks richer) (behind : Nat) :
    plain.Annotated remarks (Jitlog.format.advance richer behind) :=
  ⟨annotated.skeleton_eq, annotated.sublist, annotated.exists_perm⟩

/-- It makes no difference where the same fault is. -/
theorem Annotated.stop
    (annotated : plain.Annotated remarks richer)
    {fault other : Fault}
    (same : other.placeless = fault.placeless) :
    (Jitlog.format.stop plain fault).Annotated remarks (Jitlog.format.stop richer other) := by
  refine ⟨?_, annotated.sublist, annotated.exists_perm⟩
  have faults : (some other).map Fault.placeless = (some fault).map Fault.placeless :=
    congrArg some same
  have skeletons := congrArg
    (fun forest : Forest => { forest with fault := (some fault).map Fault.placeless })
    annotated.skeleton_eq
  exact Eq.trans (congrArg (fun fault => { richer.skeleton with fault }) faults) skeletons

end Forest
end RuntimeLog
