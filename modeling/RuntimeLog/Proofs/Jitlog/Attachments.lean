import RuntimeLog.Proofs.Jitlog.History

/-!
# Attached traces

What a history tells about the traces to which control is led from a point: a
stitched bridge comes behind those which were attached to the point before, and a
redirect takes the place of all of them.
-/

namespace RuntimeLog
namespace Jitlog

/-! ## The end of a list -/

section SinceLast

variable {α : Type}

/-- The entries from the last one with a property on, or all of them if there is
none. -/
def sinceLast (property : α → Bool) : List α → List α
  | [] => []
  | entry :: entries =>
      if entries.any property then sinceLast property entries else entry :: entries

variable {property : α → Bool} {entries before behind : List α} {entry : α}

/-- Without an entry with the property, these are all entries. -/
theorem sinceLast_of_none (none : ∀ entry ∈ entries, ¬ property entry) :
    sinceLast property entries = entries := by
  cases entries with
  | nil => rfl
  | cons first rest =>
      have missing : ¬ rest.any property := by
        rw [List.any_eq_true]
        rintro ⟨entry, member, has⟩
        exact none entry (List.mem_cons_of_mem first member) has
      rw [sinceLast, if_neg missing]

/-- The entries from the last one with the property on begin with it. -/
theorem sinceLast_append_cons (has : property entry) (none : ∀ entry ∈ behind, ¬ property entry) :
    sinceLast property (before ++ entry :: behind) = entry :: behind := by
  induction before with
  | nil =>
      have missing : ¬ behind.any property := by
        rw [List.any_eq_true]
        rintro ⟨other, member, others⟩
        exact none other member others
      rw [List.nil_append, sinceLast, if_neg missing]
  | cons first before inductionHypothesis =>
      have there : (before ++ entry :: behind).any property :=
        List.any_eq_true.mpr ⟨entry, by simp, has⟩
      rw [List.cons_append, sinceLast, if_pos there, inductionHypothesis]

/-- A last entry with the property comes alone, and another one behind those which
were there. -/
theorem sinceLast_concat (property : α → Bool) (entries : List α) (entry : α) :
    sinceLast property (entries ++ [entry]) =
      if property entry then [entry] else sinceLast property entries ++ [entry] := by
  induction entries with
  | nil =>
      rw [List.nil_append, sinceLast]
      split <;> rfl
  | cons first entries inductionHypothesis =>
      rw [List.cons_append, sinceLast, sinceLast, inductionHypothesis, List.any_append]
      by_cases last : property entry
      · simp [last]
      · by_cases earlier : entries.any property
        · simp [last, earlier]
        · simp [last, earlier]

end SinceLast

/-! ## Attachments -/

/-- A trace which is attached to a point. -/
structure Attachment where
  origin : TracePoint
  target : UInt64
  /-- Whether it takes the place of those which were attached to the point before. -/
  supersedes : Bool
deriving DecidableEq, Repr

namespace History

/-- What a record attaches behind a history: the trace whose code starts at an
address, or one which is named, to the point which its descriptor stands for. -/
def attachment? (earlier : History) : Record → Option Attachment
  | .stitchBridge descriptor address => do
      let origin ← earlier.summary.registered? descriptor
      let target ← earlier.summary.traceAt? address
      return { origin, target, supersedes := false }
  | .redirect before _ target =>
      (earlier.summary.registered? before).map fun origin =>
        { origin, target, supersedes := true }
  | _ => none

/-- All traces which were attached, oldest first. -/
def attachments : History → List Attachment
  | [] => []
  | record :: earlier => attachments earlier ++ (attachment? earlier record).toList

/-- The traces which were attached to a point, oldest first. -/
def attachmentsTo (history : History) (origin : TracePoint) : List Attachment :=
  history.attachments.filter fun attachment => attachment.origin == origin

/-- The traces to which control is led from a point: those which were attached to it
since others were superseded last. -/
def targets (history : History) (origin : TracePoint) : List UInt64 :=
  (sinceLast Attachment.supersedes (history.attachmentsTo origin)).map Attachment.target

/-- The trace to which control was led last from a point. -/
def lastTarget? (history : History) (origin : TracePoint) : Option UInt64 :=
  (history.targets origin).getLast?

variable {history : History} {record : Record} {origin : TracePoint} {attachment : Attachment}

@[simp] theorem attachments_cons (record : Record) (history : History) :
    attachments (record :: history) =
      history.attachments ++ (history.attachment? record).toList := rfl

/-- Targets stay while nothing is attached. -/
theorem targets_cons_of_none
    (nothing : history.attachment? record = none)
    (origin : TracePoint) :
    targets (record :: history) origin = history.targets origin := by
  unfold targets attachmentsTo
  rw [attachments_cons, nothing, Option.toList_none, List.append_nil]

/-- The targets of a point stay when a trace is attached to another one. -/
theorem targets_cons_of_ne
    (attached : history.attachment? record = some attachment)
    (other : attachment.origin ≠ origin) :
    targets (record :: history) origin = history.targets origin := by
  unfold targets attachmentsTo
  rw [attachments_cons, attached, Option.toList_some, List.filter_append,
    List.filter_singleton, beq_false_of_ne other]
  simp

/-- A trace which is attached to a point comes behind its targets, or alone. -/
theorem targets_cons_of_some (attached : history.attachment? record = some attachment) :
    targets (record :: history) attachment.origin =
      (if attachment.supersedes then [] else history.targets attachment.origin) ++
        [attachment.target] := by
  unfold targets attachmentsTo
  rw [attachments_cons, attached, Option.toList_some, List.filter_append,
    List.filter_singleton, beq_self_eq_true, cond_true, sinceLast_concat]
  split <;> simp

end History
end Jitlog
end RuntimeLog
