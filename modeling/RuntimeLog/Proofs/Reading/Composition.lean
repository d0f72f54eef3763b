import RuntimeLog.Reading

/-!
# Composed readings

Fields are read by readings which are put together from a few: values at hand, bytes
and readings one behind the other.  A property which is kept when readings are put
together is therefore one of most fields.
-/

namespace RuntimeLog
namespace Reading

variable {ε α β : Type}

/-- A property which readings have if those have it from which they are put together. -/
structure Composes (property : ∀ {α : Type}, Reading ε α → Prop) : Prop where
  done : ∀ {α : Type} (value : α), property (done value)
  bytes : ∀ count, property (bytes count)
  bind : ∀ {α β : Type} {reading : Reading ε α} {next : α → Reading ε β},
    property reading → (∀ value, property (next value)) → property (reading >>= next)

namespace Composes

variable {property : ∀ {α : Type}, Reading ε α → Prop}

/-- What is made of a value is of no consequence. -/
theorem map (composes : Composes property) {reading : Reading ε α} (holds : property reading)
    (convert : α → β) :
    property (convert <$> reading) :=
  composes.bind holds fun value => composes.done (convert value)

/-- A reading can be repeated. -/
theorem repeated (composes : Composes property) {item : Reading ε α} (holds : property item)
    (count : Nat) :
    property (repeated count item) := by
  unfold Reading.repeated
  generalize [] = found
  induction count generalizing found with
  | zero => exact composes.done found.reverse
  | succ count inductionHypothesis =>
      exact composes.bind holds fun value => inductionHypothesis (value :: found)

/-! ## Fields -/

theorem natural (composes : Composes property) (width : Nat) : property (natural width) :=
  composes.map (composes.bytes width) LittleEndian.decode

theorem u8 (composes : Composes property) : property u8 :=
  composes.map (composes.natural 1) _

theorem u16 (composes : Composes property) : property u16 :=
  composes.map (composes.natural 2) _

theorem u64 (composes : Composes property) : property u64 :=
  composes.map (composes.natural 8) _

theorem address (composes : Composes property) (words : WordSize) : property (address words) :=
  composes.map (composes.natural words.bytes) _

theorem blob (composes : Composes property) : property blob :=
  composes.bind (composes.natural 4) fun count => composes.bytes count

end Composes
end Reading
end RuntimeLog
