import RuntimeLog.Proofs.Reading.Composition

/-!
# Causes of failure

A reading fails for a cause only if the cause is written in one of its branches.
Which causes it avoids is therefore found by its structure alone, whatever bytes
it is run on.
-/

namespace RuntimeLog
namespace Reading

variable {ε α β : Type} {cause : ε}

/-- A reading which does not fail for some cause, in none of its branches. -/
def Avoids (cause : ε) : Reading ε α → Prop
  | done _ => True
  | failed other => other ≠ cause
  | take _ more => ∀ piece, (more piece).Avoids cause
  | locate more => ∀ offset, (more offset).Avoids cause

/-- What is left of a reading avoids what the reading avoids. -/
theorem Avoids.advanceFrom
    {reading : Reading ε α}
    (avoids : reading.Avoids cause)
    (start used : Nat)
    (bytes : Bytes) :
    (reading.advanceFrom start used bytes).reading.Avoids cause := by
  induction reading generalizing used bytes with
  | done value => exact avoids
  | failed other => exact avoids
  | take count more inductionHypothesis =>
      rw [Reading.advanceFrom]
      split
      · exact avoids
      · exact inductionHypothesis _ (avoids _) _ _
  | locate more inductionHypothesis => exact inductionHypothesis _ (avoids _) _ _

/-- A reading does not fail for a cause which it avoids, on no bytes. -/
theorem Avoids.run_ne
    {reading : Reading ε α}
    (avoids : reading.Avoids cause)
    (start : Nat)
    (bytes : Bytes)
    (used : Nat) :
    reading.run start bytes ≠ .malformed cause used := by
  intro failed
  have left := avoids.advanceFrom start 0 bytes
  simp only [run, Progress.advance, Progress.start, Progress.outcome] at failed
  split at failed
  · cases failed
  · rename_i other stopped
    cases failed
    rw [stopped] at left
    exact left rfl
  · cases failed

/-- Readings one behind the other avoid what both avoid. -/
theorem Avoids.bind
    {reading : Reading ε α}
    {next : α → Reading ε β}
    (first : reading.Avoids cause)
    (second : ∀ value, (next value).Avoids cause) :
    (reading >>= next).Avoids cause := by
  induction reading with
  | done value => exact second value
  | failed other => exact first
  | take count more inductionHypothesis =>
      exact fun piece => inductionHypothesis piece (first piece)
  | locate more inductionHypothesis =>
      exact fun offset => inductionHypothesis offset (first offset)

/-- Whatever is put together from readings which avoid a cause avoids it. -/
theorem composes_avoids : Composes fun reading : Reading ε _ => reading.Avoids cause where
  done _ := trivial
  bytes _ _ := trivial
  bind := Avoids.bind

/-- Repeating a reading avoids what the reading avoids. -/
theorem Avoids.repeated
    {item : Reading ε α}
    (avoids : item.Avoids cause)
    (count : Nat) :
    (Reading.repeated count item).Avoids cause :=
  composes_avoids.repeated avoids count

/-! ## Fields -/

/-- Bytes are read without failure. -/
theorem avoids_bytes (count : Nat) : (bytes count).Avoids cause :=
  composes_avoids.bytes count

/-- A number of eight bytes is read without failure. -/
theorem avoids_u64 : u64.Avoids cause :=
  composes_avoids.u64

/-- An address is read without failure. -/
theorem avoids_address (words : WordSize) : (address words).Avoids cause :=
  composes_avoids.address words

/-- A text fails for the causes which say that it is not UTF-8. -/
theorem avoids_text
    {invalidAt : Nat → ε}
    (other : ∀ offset, invalidAt offset ≠ cause) :
    (text invalidAt).Avoids cause := by
  intro start
  refine composes_avoids.blob.bind fun content => ?_
  split
  · trivial
  · exact other start

end Reading
end RuntimeLog
