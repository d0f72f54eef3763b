import RuntimeLog.Reading

/-!
# Readings of growing inputs

A reading which ran out of input goes on as if all bytes had been there from the
start.  Whatever a reading says about the bytes at hand, short of asking for
more, it therefore says about every longer string as well.
-/

namespace RuntimeLog
namespace Reading

variable {ε α : Type}

/-- A reading takes no more than the bytes at hand. -/
theorem used_advanceFrom
    (start : Nat)
    (reading : Reading ε α)
    (used : Nat)
    (bytes : Bytes) :
    used ≤ (reading.advanceFrom start used bytes).used ∧
      (reading.advanceFrom start used bytes).used ≤ used + bytes.length := by
  induction reading generalizing used bytes with
  | done value => simp [advanceFrom]
  | failed cause => simp [advanceFrom]
  | take count more inductionHypothesis =>
      simp only [advanceFrom, Bytes.splitExactly_eq]
      by_cases enough : count ≤ bytes.length
      · have step := inductionHypothesis (bytes.take count) (used + count) (bytes.drop count)
        simp only [enough, if_true, List.length_drop] at step ⊢
        omega
      · simp [enough]
  | locate more inductionHypothesis =>
      exact inductionHypothesis (start + used) used bytes

/-- Reading a longer string is reading its first part, and then going on behind
the bytes which were taken. -/
theorem advanceFrom_append
    (start : Nat)
    (reading : Reading ε α)
    (used : Nat)
    (bytes more : Bytes) :
    reading.advanceFrom start used (bytes ++ more) =
      (reading.advanceFrom start used bytes).advance start
        (bytes.drop ((reading.advanceFrom start used bytes).used - used) ++ more) := by
  induction reading generalizing used bytes with
  | done value => simp [advanceFrom, Progress.advance]
  | failed cause => simp [advanceFrom, Progress.advance]
  | take count next inductionHypothesis =>
      by_cases enough : count ≤ bytes.length
      · have whole : count ≤ (bytes ++ more).length := by
          rw [List.length_append]
          omega
        have bound := (used_advanceFrom start (next (bytes.take count)) (used + count)
          (bytes.drop count)).1
        simp only [advanceFrom, Bytes.splitExactly_eq, enough, whole, if_true,
          List.take_append_of_le_length enough, List.drop_append_of_le_length enough]
        rw [inductionHypothesis, List.drop_drop]
        congr 3
        omega
      · simp [advanceFrom, Progress.advance, Bytes.splitExactly_eq, enough]
  | locate next inductionHypothesis =>
      exact inductionHypothesis (start + used) used bytes

/-- A reading in progress which started on some bytes: going on behind those
which it took is the same as reading all of them again. -/
structure Resumes (reading : Reading ε α) (start : Nat) (bytes : Bytes)
    (progress : Progress ε α) : Prop where
  used_le : progress.used ≤ bytes.length
  advance_eq : ∀ more,
    (Progress.start reading).advance start (bytes ++ more) =
      progress.advance start (bytes.drop progress.used ++ more)

/-- A reading which took nothing can be resumed. -/
theorem Resumes.start (reading : Reading ε α) (start : Nat) (bytes : Bytes) :
    reading.Resumes start bytes (.start reading) where
  used_le := Nat.zero_le _
  advance_eq more := by simp [Progress.start]

/-- What is known from a resumed reading is what is known from all bytes. -/
theorem Resumes.outcome_eq
    {reading : Reading ε α}
    {start : Nat}
    {bytes : Bytes}
    {progress : Progress ε α}
    (resumes : reading.Resumes start bytes progress) :
    (progress.advance start (bytes.drop progress.used)).outcome = reading.run start bytes := by
  have all := resumes.advance_eq []
  simp only [List.append_nil] at all
  unfold run
  rw [all]

/-- Going on with a resumed reading gives one which can be resumed again. -/
theorem Resumes.advance
    {reading : Reading ε α}
    {start : Nat}
    {bytes : Bytes}
    {progress : Progress ε α}
    (resumes : reading.Resumes start bytes progress) :
    reading.Resumes start bytes (progress.advance start (bytes.drop progress.used)) := by
  have bounds := used_advanceFrom start progress.reading progress.used (bytes.drop progress.used)
  rw [List.length_drop] at bounds
  refine ⟨?_, fun more => ?_⟩
  · have before := resumes.used_le
    simp only [Progress.advance]
    omega
  · rw [resumes.advance_eq, Progress.advance, advanceFrom_append, List.drop_drop]
    congr 3
    simp only [Progress.advance]
    omega

/-- A reading can be resumed on more bytes. -/
theorem Resumes.append
    {reading : Reading ε α}
    {start : Nat}
    {bytes : Bytes}
    {progress : Progress ε α}
    (resumes : reading.Resumes start bytes progress)
    (more : Bytes) :
    reading.Resumes start (bytes ++ more) progress where
  used_le := by
    have before := resumes.used_le
    rw [List.length_append]
    omega
  advance_eq further := by
    rw [List.append_assoc, resumes.advance_eq, List.drop_append_of_le_length resumes.used_le,
      List.append_assoc]

/-- A reading which ended on some bytes ends in the same way on more of them. -/
theorem run_append
    {reading : Reading ε α}
    {start : Nat}
    {bytes : Bytes}
    (ended : reading.run start bytes ≠ .incomplete)
    (more : Bytes) :
    reading.run start (bytes ++ more) = reading.run start bytes := by
  have again := advanceFrom_append start reading 0 bytes more
  simp only [run, Progress.advance, Progress.start, Progress.outcome] at ended again ⊢
  rw [again]
  cases stopped : (reading.advanceFrom start 0 bytes).reading with
  | done value => simp [advanceFrom]
  | failed cause => simp [advanceFrom]
  | take count next => simp [stopped] at ended
  | locate next => simp [stopped] at ended

/-- A reading does not look at the bytes behind those which it takes. -/
theorem advanceFrom_take
    {start used count : Nat}
    {reading : Reading ε α}
    {bytes : Bytes}
    (enough : (reading.advanceFrom start used bytes).used ≤ used + count) :
    reading.advanceFrom start used (bytes.take count) =
      reading.advanceFrom start used bytes := by
  induction reading generalizing used bytes count with
  | done value => rfl
  | failed cause => rfl
  | take piece next inductionHypothesis =>
      simp only [advanceFrom, Bytes.splitExactly_eq] at enough ⊢
      by_cases there : piece ≤ bytes.length
      · simp only [there, if_true] at enough ⊢
        have behind := (used_advanceFrom start (next (bytes.take piece)) (used + piece)
          (bytes.drop piece)).1
        have taken : piece ≤ count := by omega
        have kept : piece ≤ (bytes.take count).length := by
          rw [List.length_take]
          omega
        simp only [kept, if_true, List.take_take, Nat.min_eq_left taken, List.drop_take]
        exact inductionHypothesis (bytes.take piece) (by omega)
      · have missing : ¬ piece ≤ (bytes.take count).length := by
          rw [List.length_take]
          omega
        simp only [there, missing, if_false]
  | locate next inductionHypothesis => exact inductionHypothesis (start + used) enough

/-- A value takes the bytes which its reading took. -/
theorem used_of_run
    {reading : Reading ε α}
    {start used : Nat}
    {bytes : Bytes}
    {value : α}
    (complete : reading.run start bytes = .complete value used) :
    (reading.advanceFrom start 0 bytes).used = used := by
  simp only [run, Progress.advance, Progress.start, Progress.outcome] at complete
  split at complete
  · cases complete
    rfl
  · cases complete
  · cases complete

/-- A value is read in the same way when the bytes behind it are cut off. -/
theorem run_take
    {reading : Reading ε α}
    {start used count : Nat}
    {bytes : Bytes}
    {value : α}
    (complete : reading.run start bytes = .complete value used)
    (enough : used ≤ count) :
    reading.run start (bytes.take count) = .complete value used := by
  have taken := used_of_run complete
  have same := @advanceFrom_take _ _ start 0 count reading bytes (by omega)
  rw [← complete, run, run, Progress.advance, Progress.advance, Progress.start, same]

/-- A reading which asked for some bytes and ended got them, and went on behind
them. -/
theorem complete_of_take
    {start count used total : Nat}
    {next : Bytes → Reading ε α}
    {bytes : Bytes}
    {value : α}
    (complete : ((take count next).advanceFrom start used bytes).outcome = .complete value total) :
    count ≤ bytes.length ∧
      ((next (bytes.take count)).advanceFrom start (used + count) (bytes.drop count)).outcome =
        .complete value total := by
  simp only [advanceFrom, Bytes.splitExactly_eq] at complete
  by_cases enough : count ≤ bytes.length
  · rw [if_pos enough] at complete
    exact ⟨enough, complete⟩
  · rw [if_neg enough] at complete
    cases complete

@[simp] theorem u8_bind {β : Type} (next : UInt8 → Reading ε β) :
    (u8 >>= next) = take 1 fun piece => next (UInt8.ofNat (LittleEndian.decode piece)) := rfl

@[simp] theorem u16_bind {β : Type} (next : UInt16 → Reading ε β) :
    (u16 >>= next) = take 2 fun piece => next (UInt16.ofNat (LittleEndian.decode piece)) := rfl

/-- A value is read from no more than the bytes at hand. -/
theorem used_le_of_run
    {reading : Reading ε α}
    {start used : Nat}
    {bytes : Bytes}
    {value : α}
    (complete : reading.run start bytes = .complete value used) :
    used ≤ bytes.length := by
  have bound := (used_advanceFrom start reading 0 bytes).2
  rw [used_of_run complete] at bound
  omega

end Reading
end RuntimeLog
