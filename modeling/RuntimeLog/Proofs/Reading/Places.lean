import RuntimeLog.Proofs.Reading.Composition
import RuntimeLog.Proofs.Reading.Exactness

/-!
# Places of readings

A reading does not depend on where in a stream it starts, but for what its causes of
failure tell about the place.
-/

namespace RuntimeLog

/-- An outcome with what is made of its cause of failure. -/
def Outcome.mapCause {ε δ α : Type} (rename : ε → δ) : Outcome ε α → Outcome δ α
  | complete value used => complete value used
  | incomplete => incomplete
  | malformed cause used => malformed (rename cause) used

theorem Outcome.mapCause_behind
    {ε δ α : Type}
    (rename : ε → δ)
    (outcome : Outcome ε α)
    (count : Nat) :
    (outcome.behind count).mapCause rename = (outcome.mapCause rename).behind count := by
  cases outcome <;> rfl

namespace Reading

variable {ε δ α β : Type} {forget : ε → δ}

/-- A reading which makes the same of some bytes wherever they are in a stream, but for
what is forgotten of its cause of failure. -/
def IgnoresPlace (forget : ε → δ) (reading : Reading ε α) : Prop :=
  ∀ start other bytes,
    (reading.run start bytes).mapCause forget = (reading.run other bytes).mapCause forget

/-- A value which is read at some place is read at every other one. -/
theorem IgnoresPlace.run_eq_complete
    {reading : Reading ε α}
    (ignores : reading.IgnoresPlace forget)
    {start used : Nat}
    {bytes : Bytes}
    {value : α}
    (complete : reading.run start bytes = .complete value used)
    (other : Nat) :
    reading.run other bytes = .complete value used := by
  have same := ignores start other bytes
  rw [complete] at same
  cases there : reading.run other bytes with
  | complete again count =>
      rw [there] at same
      cases same
      rfl
  | incomplete =>
      rw [there] at same
      cases same
  | malformed cause count =>
      rw [there] at same
      cases same

/-- Bytes which end too early do so at every place. -/
theorem IgnoresPlace.run_eq_incomplete
    {reading : Reading ε α}
    (ignores : reading.IgnoresPlace forget)
    {start : Nat}
    {bytes : Bytes}
    (incomplete : reading.run start bytes = .incomplete)
    (other : Nat) :
    reading.run other bytes = .incomplete := by
  have same := ignores start other bytes
  rw [incomplete] at same
  cases there : reading.run other bytes with
  | complete value count =>
      rw [there] at same
      cases same
  | incomplete => rfl
  | malformed cause count =>
      rw [there] at same
      cases same

/-- Bytes which are malformed are so at every place, for a cause of which only what is
forgotten may differ. -/
theorem IgnoresPlace.run_eq_malformed
    {reading : Reading ε α}
    (ignores : reading.IgnoresPlace forget)
    {start used : Nat}
    {bytes : Bytes}
    {cause : ε}
    (malformed : reading.run start bytes = .malformed cause used)
    (other : Nat) :
    ∃ again, reading.run other bytes = .malformed again used ∧ forget again = forget cause := by
  have same := ignores start other bytes
  rw [malformed] at same
  cases there : reading.run other bytes with
  | complete value count =>
      rw [there] at same
      cases same
  | incomplete =>
      rw [there] at same
      cases same
  | malformed again count =>
      rw [there, Outcome.mapCause, Outcome.mapCause, Outcome.malformed.injEq] at same
      obtain ⟨causes, rfl⟩ := same
      exact ⟨again, rfl, causes.symm⟩

/-- Readings one behind the other ignore their place if both do. -/
theorem IgnoresPlace.bind
    {reading : Reading ε α}
    {next : α → Reading ε β}
    (first : reading.IgnoresPlace forget)
    (second : ∀ value, (next value).IgnoresPlace forget) :
    (reading >>= next).IgnoresPlace forget := by
  intro start other bytes
  rw [run_bind, run_bind]
  cases ran : reading.run start bytes with
  | complete value used =>
      rw [first.run_eq_complete ran other]
      dsimp only
      rw [Outcome.mapCause_behind, Outcome.mapCause_behind,
        second value (start + used) (other + used)]
  | incomplete => rw [first.run_eq_incomplete ran other]
  | malformed cause used =>
      obtain ⟨again, there, same⟩ := first.run_eq_malformed ran other
      rw [there]
      dsimp only [Outcome.mapCause]
      rw [same]

/-- Whatever is put together from readings which ignore their place ignores it. -/
theorem composes_ignoresPlace :
    Composes fun reading : Reading ε _ => reading.IgnoresPlace forget where
  done _ _ _ _ := rfl
  bytes count start other bytes := by
    unfold Reading.bytes
    rw [run_take_eq, run_take_eq]
    rfl
  bind := IgnoresPlace.bind

/-- A text ignores its place if this is forgotten where it is not UTF-8. -/
theorem ignoresPlace_text
    {invalidAt : Nat → ε}
    (same : ∀ start other, forget (invalidAt start) = forget (invalidAt other)) :
    (text invalidAt).IgnoresPlace forget := by
  intro start other bytes
  have blobs : (blob : Reading ε Bytes).IgnoresPlace id := composes_ignoresPlace.blob
  unfold text
  rw [run_locate, run_locate, run_bind, run_bind]
  cases ran : (blob : Reading ε Bytes).run start bytes with
  | complete content used =>
      rw [blobs.run_eq_complete ran other]
      dsimp only
      cases Text.ofUtf8? content with
      | some value => rfl
      | none => exact congrArg (Outcome.malformed · (used + 0)) (same start other)
  | incomplete => rw [blobs.run_eq_incomplete ran other]
  | malformed cause used =>
      obtain ⟨again, there, rfl⟩ := blobs.run_eq_malformed ran other
      rw [there]
      rfl

end Reading
end RuntimeLog
