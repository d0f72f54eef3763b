import RuntimeLog.Proofs.LogReader.Decoding
import RuntimeLog.Proofs.Update

/-!
# Good records

A log is a sequence of good records, behind which it is complete, ends inside a
record or has a record with a fault.  The good records do not depend on what
follows them, nor on what no record sees of a model.
-/

namespace RuntimeLog
namespace LogFormat

variable {Marker Record Model : Type}

/-- Good records one behind the other, with the answers to requests for them, the
number of bytes which they take up and the model behind them. -/
inductive Records (format : LogFormat Marker Record Model) (dialect : Dialect Marker) :
    Model → Nat → Bytes → List Status → Nat → Model → Prop
  | none
      {model : Model}
      {offset : Nat}
      {bytes : Bytes} :
      Records format dialect model offset bytes [] 0 model
  | more
      {model next last : Model}
      {offset used further : Nat}
      {bytes : Bytes}
      {marker : UInt8}
      {answers : List Status}
      (incomplete : ¬ format.isComplete model)
      (judged : format.judge dialect model offset bytes = .decoded marker used next)
      (rest : Records format dialect next (offset + used) (bytes.drop used) answers further last) :
      Records format dialect model offset bytes (.decoded marker offset :: answers)
        (used + further) last

variable {format : LogFormat Marker Record Model} {dialect : Dialect Marker}
variable {model last : Model} {offset used total count : Nat} {bytes : Bytes}
variable {answers : List Status}

/-- A good record is judged in the same way when the bytes behind it are cut
off. -/
theorem judge_take
    {marker : UInt8}
    {next : Model}
    (judged : format.judge dialect model offset bytes = .decoded marker used next)
    (enough : used ≤ count) :
    format.judge dialect model offset (bytes.take count) = .decoded marker used next := by
  have positive := (used_of_judge judged).1
  obtain ⟨count, rfl⟩ := Nat.exists_eq_succ_of_ne_zero (show count ≠ 0 by omega)
  cases bytes with
  | nil => cases judged
  | cons first payload =>
      rw [List.take_succ_cons, judge]
      rw [judge] at judged
      cases found : dialect.markers.lookup first with
      | error error =>
          rw [found] at judged
          cases judged
      | ok meaning =>
          rw [found] at judged
          simp only at judged ⊢
          cases ran : (format.payload dialect.header model meaning).run (offset + 1) payload with
          | incomplete =>
              rw [ran] at judged
              cases judged
          | malformed error there =>
              rw [ran] at judged
              cases judged
          | complete record there =>
              have fits : there ≤ count := by
                rw [ran, judgePayload] at judged
                split at judged
                · cases judged
                · cases judged
                  omega
              rw [Reading.run_take ran fits, ← ran, judged]

/-- A good record was applied to the model, which was then told where it ends. -/
theorem applied_of_judge
    {marker : UInt8}
    {next : Model}
    (judged : format.judge dialect model offset bytes = .decoded marker used next) :
    ∃ record applied,
      (format.apply (offset + 1) record).run model = .ok () applied ∧
      next = format.advance applied (offset + used) := by
  cases bytes with
  | nil => cases judged
  | cons first payload =>
      rw [judge] at judged
      split at judged
      · cases judged
      · unfold judgePayload at judged
        split at judged
        · cases judged
        · cases judged
        · rename_i record there _
          split at judged
          · cases judged
          · rename_i applied found
            cases judged
            exact ⟨record, applied, found, by rw [Nat.add_assoc]⟩

namespace Records

/-- Good records stay what they are when bytes behind them are cut off. -/
theorem take
    (records : Records format dialect model offset bytes answers total last)
    (enough : total ≤ count) :
    Records format dialect model offset (bytes.take count) answers total last := by
  induction records generalizing count with
  | none => exact .none
  | @more model next last offset used further bytes marker answers incomplete judged rest
      inductionHypothesis =>
      refine .more incomplete (judge_take judged (by omega)) ?_
      rw [List.drop_take]
      exact inductionHypothesis (by omega)

/-- Good records stay what they are when more bytes follow. -/
theorem append
    (records : Records format dialect model offset bytes answers total last)
    (more : Bytes) :
    Records format dialect model offset (bytes ++ more) answers total last := by
  induction records with
  | none => exact .none
  | more incomplete judged rest inductionHypothesis =>
      refine .more incomplete ((judge_append (by rw [judged]; simp) more).trans judged) ?_
      rw [List.drop_append_of_le_length (used_of_judge judged).2]
      exact inductionHypothesis

/-- Good records are all in the bytes. -/
theorem total_le (records : Records format dialect model offset bytes answers total last) :
    total ≤ bytes.length := by
  induction records with
  | none => exact Nat.zero_le _
  | more incomplete judged rest inductionHypothesis =>
      have within := (used_of_judge judged).2
      rw [List.length_drop] at inductionHypothesis
      omega

/-- A log decodes to the answers to its good records and what is behind them. -/
theorem decodeFrom_eq
    (records : Records format dialect model offset bytes answers total last) :
    format.decodeFrom dialect model offset bytes =
      (answers ++ (format.decodeFrom dialect last (offset + total) (bytes.drop total)).1,
        (format.decodeFrom dialect last (offset + total) (bytes.drop total)).2) := by
  induction records with
  | none => rfl
  | more incomplete judged rest inductionHypothesis =>
      rw [decodeFrom_of_decoded incomplete judged, inductionHypothesis, List.drop_drop,
        Nat.add_assoc]
      rfl

/-- Cut off behind its good records, a log has no fault. -/
theorem decodeFrom_take
    (records : Records format dialect model offset bytes answers total last) :
    (format.decodeFrom dialect model offset (bytes.take total)).2 = last := by
  have behind : (bytes.take total).drop total = [] := by
    rw [List.drop_take, Nat.sub_self, List.take_zero]
  rw [(records.take (Nat.le_refl total)).decodeFrom_eq, behind]
  by_cases complete : format.isComplete last
  · rw [decodeFrom_of_complete complete]
  · rw [decodeFrom_of_unfinished complete rfl]
    rfl

/-- The model behind good records was told last where they end. -/
theorem exists_advance
    (records : Records format dialect model offset bytes answers total last)
    (some : answers ≠ []) :
    ∃ applied, last = format.advance applied (offset + total) := by
  induction records with
  | none => exact absurd rfl some
  | @more model next last offset used further bytes marker answers incomplete judged rest
      inductionHypothesis =>
      cases rest with
      | none =>
          obtain ⟨record, applied, _, reached⟩ := applied_of_judge judged
          exact ⟨applied, reached⟩
      | more =>
          rw [← Nat.add_assoc]
          exact inductionHypothesis (List.cons_ne_nil _ _)

/-- What every good record preserves is preserved by all of them. -/
theorem preserves
    (records : Records format dialect model offset bytes answers total last)
    (property : Model → Prop)
    (before : property model)
    (step : ∀ model next record offset behind,
      (format.apply offset record).run model = .ok () next → property model →
        property (format.advance next behind)) :
    property last := by
  induction records with
  | none => exact before
  | @more model next last offset used further bytes marker answers incomplete judged rest
      inductionHypothesis =>
      apply inductionHypothesis
      obtain ⟨record, applied, changed, rfl⟩ := applied_of_judge judged
      exact step _ _ _ _ _ changed before

end Records

/-- Every log is a sequence of good records, behind which it is complete, ends
inside a record or has a record with a fault. -/
theorem exists_records
    (format : LogFormat Marker Record Model)
    (dialect : Dialect Marker)
    (model : Model)
    (offset : Nat)
    (bytes : Bytes) :
    ∃ answers total last,
      Records format dialect model offset bytes answers total last ∧
      (format.isComplete last ∨
        ¬ format.isComplete last ∧
          (format.judge dialect last (offset + total) (bytes.drop total) = .unfinished ∨
            ∃ marker error left,
              format.judge dialect last (offset + total) (bytes.drop total) =
                .refused marker error left)) := by
  by_cases complete : format.isComplete model
  · exact ⟨[], 0, model, .none, Or.inl complete⟩
  · cases judged : format.judge dialect model offset bytes with
    | unfinished => exact ⟨[], 0, model, .none, Or.inr ⟨complete, Or.inl judged⟩⟩
    | refused marker error left =>
        exact ⟨[], 0, model, .none, Or.inr ⟨complete, Or.inr ⟨marker, error, left, judged⟩⟩⟩
    | decoded marker used next =>
        have bounds := used_of_judge judged
        have shorter : (bytes.drop used).length < bytes.length := by
          rw [List.length_drop]
          omega
        obtain ⟨answers, total, last, records, behind⟩ :=
          exists_records format dialect next (offset + used) (bytes.drop used)
        rw [List.drop_drop, Nat.add_assoc] at behind
        exact ⟨_, _, last, .more complete judged records, behind⟩
termination_by bytes.length

/-! ## Changes which make no difference -/

/-- A format whose records do not see a change of the model, and leave it there. -/
structure Ignores (format : LogFormat Marker Record Model) (change : Model → Model) : Prop where
  payload : ∀ header model meaning,
    format.payload header (change model) meaning = format.payload header model meaning
  apply : ∀ offset record, (format.apply offset record).Ignores change
  advance : ∀ model behind,
    format.advance (change model) behind = change (format.advance model behind)
  stop : ∀ model fault, format.stop (change model) fault = change (format.stop model fault)
  isComplete : ∀ model, format.isComplete (change model) = format.isComplete model

variable {change : Model → Model}

/-- The verdict on a record stays, with the change in its model. -/
theorem Ignores.judge_eq
    (ignores : format.Ignores change)
    (dialect : Dialect Marker)
    (model : Model)
    (offset : Nat)
    (bytes : Bytes) :
    format.judge dialect (change model) offset bytes =
      (format.judge dialect model offset bytes).map change := by
  cases bytes with
  | nil => rfl
  | cons marker payload =>
      rw [judge, judge]
      cases dialect.markers.lookup marker with
      | error error => rfl
      | ok meaning =>
          dsimp only
          rw [ignores.payload]
          cases (format.payload dialect.header model meaning).run (offset + 1) payload with
          | incomplete => rfl
          | malformed error used => rfl
          | complete record used =>
              simp only [judgePayload]
              rw [ignores.apply (offset + 1) record model]
              cases (format.apply (offset + 1) record).run model with
              | error error left => rfl
              | ok value next =>
                  dsimp only
                  rw [ignores.advance]
                  rfl

/-- A log decodes to the same answers, with the change in its model. -/
theorem Ignores.decodeFrom_eq
    (ignores : format.Ignores change)
    (dialect : Dialect Marker)
    (model : Model)
    (offset : Nat)
    (bytes : Bytes) :
    format.decodeFrom dialect (change model) offset bytes =
      ((format.decodeFrom dialect model offset bytes).1,
        change (format.decodeFrom dialect model offset bytes).2) := by
  have same := ignores.judge_eq dialect model offset bytes
  by_cases complete : format.isComplete model
  · rw [decodeFrom_of_complete complete,
      decodeFrom_of_complete ((ignores.isComplete model).trans complete)]
  · have still : ¬ format.isComplete (change model) := by
      rw [ignores.isComplete]
      exact complete
    cases judged : format.judge dialect model offset bytes with
    | unfinished =>
        rw [judged] at same
        rw [decodeFrom_of_unfinished complete judged, decodeFrom_of_unfinished still same]
        cases bytes with
        | nil => rfl
        | cons marker payload => rw [finished, finished, ignores.stop]
    | refused marker error left =>
        rw [judged] at same
        rw [decodeFrom_of_refused complete judged, decodeFrom_of_refused still same, ignores.stop]
    | decoded marker used next =>
        rw [judged] at same
        have bounds := used_of_judge judged
        have shorter : (bytes.drop used).length < bytes.length := by
          rw [List.length_drop]
          omega
        rw [decodeFrom_of_decoded complete judged, decodeFrom_of_decoded still same,
          ignores.decodeFrom_eq dialect next (offset + used) (bytes.drop used)]
termination_by bytes.length

end LogFormat
end RuntimeLog
