import RuntimeLog.Jitlog.Format
import RuntimeLog.Proofs.Jitlog.Payloads
import RuntimeLog.Proofs.Reading.Places
import RuntimeLog.Proofs.Update

/-!
# Places of faults

Where a record of a trace log stands makes no difference to what it means.  If it is
refused, then for the same reason, of which only the place may differ.
-/

namespace RuntimeLog

open RuntimeLog.Update

/-- A read error at no place. -/
def ReadError.placeless : ReadError → ReadError
  | invalidUtf8 _ => invalidUtf8 0
  | error => error

/-- A decode error at no place. -/
def DecodeError.placeless : DecodeError → DecodeError
  | read error => read error.placeless
  | unknownOpcode number _ => unknownOpcode number 0
  | error => error

/-- A fault at no place. -/
def Fault.placeless (fault : Fault) : Fault :=
  { fault with offset := 0, error := fault.error.placeless }

namespace Jitlog

/-- To ignore the place is a property of all payloads. -/
theorem Record.covers_ignoresPlace :
    Covers fun reading : Reading DecodeError _ =>
      reading.IgnoresPlace DecodeError.placeless where
  toComposes := Reading.composes_ignoresPlace
  text := Reading.ignoresPlace_text fun _ _ => rfl
  failed _ _ _ _ _ := rfl

variable {forest next left : Forest} {record : Record} {offset : Nat} {error : DecodeError}

/-- A record does the same wherever it stands in the log, unless it is refused for an
opcode which was not declared. -/
theorem apply_eq_or_unknownOpcode (record : Record) (forest : Forest) :
    (∀ offset other, (apply offset record).run forest = (apply other record).run forest) ∨
      ∃ number, ∀ offset,
        (apply offset record).run forest = .error (.unknownOpcode number offset) forest := by
  cases record with
  | operation opcode arguments failArguments descriptor =>
      unfold apply Forest.addOperation
      dsimp only
      simp only [EStateM.run_bind, EStateM.run_get]
      cases forest.opcodeName? opcode with
      | none => exact Or.inr ⟨opcode, fun _ => rfl⟩
      | some name => exact Or.inl fun _ _ => rfl
  | _ => exact Or.inl fun _ _ => rfl

/-- Where a record is applied, it is applied wherever it stands in the log. -/
theorem apply_offset
    (applied : (apply offset record).run forest = .ok () next)
    (other : Nat) :
    (apply other record).run forest = .ok () next := by
  rcases apply_eq_or_unknownOpcode record forest with same | ⟨number, unknown⟩
  · rw [same other offset, applied]
  · cases (unknown offset).symm.trans applied

/-- Where a record is refused, it is refused wherever it stands in the log, for the same
reason. -/
theorem exists_error_of_offset
    (failed : (apply offset record).run forest = .error error left)
    (other : Nat) :
    ∃ cause, (apply other record).run forest = .error cause left ∧
      cause.placeless = error.placeless := by
  rcases apply_eq_or_unknownOpcode record forest with same | ⟨number, unknown⟩
  · exact ⟨error, (same other offset).trans failed, rfl⟩
  · cases (unknown offset).symm.trans failed
    exact ⟨_, unknown other, rfl⟩

end Jitlog
end RuntimeLog
