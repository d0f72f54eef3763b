import Mathlib.Data.List.Induction
import RuntimeLog.Stack.Tagging

/-!
# Tags of frames

The tag of a frame depends on the frames below it through the tag of its caller
only.  Whatever this is, compiled code and nothing else is tagged as compiled.
-/

namespace RuntimeLog
namespace AddressSpace

variable {space : AddressSpace} {frame : Frame} {frames : List Frame}

@[simp] theorem tagStack_nil (space : AddressSpace) : space.tagStack [] = [] := rfl

/-- One more frame gets its tag from the last one. -/
theorem tagStack_append_singleton (space : AddressSpace) (frames : List Frame) (frame : Frame) :
    space.tagStack (frames ++ [frame]) =
      space.tagStack frames ++ [space.tagFrame (space.tagStack frames).getLast? frame] := by
  unfold tagStack
  rw [List.foldl_append, List.foldl_cons, List.foldl_nil, List.reverse_cons, List.getLast?_reverse]

@[simp] theorem length_tagStack (space : AddressSpace) (frames : List Frame) :
    (space.tagStack frames).length = frames.length := by
  induction frames using List.reverseRecOn with
  | nil => rfl
  | append_singleton frames frame inductionHypothesis =>
      rw [tagStack_append_singleton, List.length_append, List.length_append, inductionHypothesis]
      rfl

/-- Frames further out are tagged as if nothing was called from them. -/
theorem tagStack_take (space : AddressSpace) (frames : List Frame) (count : Nat) :
    space.tagStack (frames.take count) = (space.tagStack frames).take count := by
  induction frames using List.reverseRecOn with
  | nil => simp
  | append_singleton frames frame inductionHypothesis =>
      by_cases inside : count ≤ frames.length
      · rw [tagStack_append_singleton, List.take_append_of_le_length inside, inductionHypothesis,
          List.take_append_of_le_length (by simpa using inside)]
      · have whole : (frames ++ [frame]).length ≤ count := by simp; omega
        rw [List.take_of_length_le whole, List.take_of_length_le (by simpa using whole)]

/-- Every frame of a stack is tagged by itself and the tag of its caller. -/
theorem getElem?_tagStack_of_caller
    (space : AddressSpace)
    {place : Nat}
    (here : frames[place]? = some frame) :
    (space.tagStack frames)[place]? =
      some (space.tagFrame ((space.tagStack frames).take place).getLast? frame) := by
  obtain ⟨inside, rfl⟩ := List.getElem?_eq_some_iff.mp here
  have length : (frames.take place).length = place := List.length_take_of_le (Nat.le_of_lt inside)
  calc (space.tagStack frames)[place]?
      = (space.tagStack (frames.take (place + 1)))[place]? := by
        rw [tagStack_take, List.getElem?_take_of_lt (Nat.lt_succ_self place)]
    _ = _ := by
        rw [List.take_succ_eq_append_getElem inside, tagStack_append_singleton, ← tagStack_take,
          List.getElem?_append_right (by simp [length]), length_tagStack, length, Nat.sub_self]
        rfl

/-- Every frame of a stack is tagged by itself and the tag of some caller. -/
theorem exists_getElem?_tagStack
    (space : AddressSpace)
    {place : Nat}
    (here : frames[place]? = some frame) :
    ∃ caller, (space.tagStack frames)[place]? = some (space.tagFrame caller frame) :=
  ⟨_, getElem?_tagStack_of_caller space here⟩

/-- No special function is compiled code. -/
theorem specialTag?_ne_jit (name : String) : FunctionName.specialTag? name ≠ some .jit := by
  intro special
  obtain ⟨before, after, all, _⟩ := List.lookup_eq_some_iff.mp special
  have others : ∀ entry ∈ FunctionName.specialFunctions, entry.2 ≠ .jit := by decide
  exact others (_, .jit) (all ▸ List.mem_append_right before List.mem_cons_self) rfl

/-- A frame alone is tagged as compiled code if it is. -/
theorem baseTag_eq_jit_iff (caller : Option StackTag) :
    space.baseTag caller frame = .jit ↔ space.isJit frame := by
  unfold baseTag
  split
  · simp [*]
  · rename_i other
    refine iff_of_false ?_ other
    split
    · rename_i tag special
      rintro rfl
      exact specialTag?_ne_jit frame.name special
    · split <;> simp

/-- No caller spreads the tag of compiled code. -/
theorem spreadTag_ne_jit {caller : Option StackTag} {base : StackTag} (other : base ≠ .jit) :
    spreadTag caller base ≠ .jit := by
  unfold spreadTag
  split
  · simp
  · split <;> simp
  · split <;> simp
  · exact other

/-- A frame is tagged as compiled code if it is, whatever called it. -/
theorem tagFrame_eq_jit_iff {caller : Option StackTag} :
    space.tagFrame caller frame = .jit ↔ space.isJit frame := by
  rw [← baseTag_eq_jit_iff caller]
  unfold tagFrame
  dsimp only
  split
  · rfl
  · rename_i spreads
    have other : space.baseTag caller frame ≠ .jit := fun jit => spreads (Or.inr (Or.inl jit))
    exact iff_of_false (spreadTag_ne_jit other) other

end AddressSpace
end RuntimeLog
