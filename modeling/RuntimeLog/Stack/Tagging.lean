import RuntimeLog.Space.AddressSpace
import RuntimeLog.Stack.FunctionName

/-!
# Tagging of stacks

Compiled code, special functions and external code have tags of their own.
External code spreads its tag to its callees, and so do warmup and garbage
collection, of which warmup wins.  Compiled and external code and interpreter
level functions end the spreading of the latter two.
-/

namespace RuntimeLog
namespace AddressSpace

/-- The tag of a frame alone, given the tag of its caller. -/
def baseTag (space : AddressSpace) (caller : Option StackTag) (frame : Frame) : StackTag :=
  if space.isJit frame then .jit
  else
    match FunctionName.specialTag? frame.name with
    | some tag => tag
    | none => if caller = some .external ∨ space.isExternal frame then .external else .c

/-- The tag which a frame gets when the tag of its caller spreads. -/
def spreadTag (caller : Option StackTag) (base : StackTag) : StackTag :=
  match caller with
  | some .warmup => .warmup
  | some .gcMajor => if base = .warmup then .warmup else .gcMajor
  | some .gcMinor => if base = .warmup then .warmup else .gcMinor
  | _ => base

/-- The tag of a frame, given the tag of its caller. -/
def tagFrame (space : AddressSpace) (caller : Option StackTag) (frame : Frame) : StackTag :=
  let base := space.baseTag caller frame
  if frame.isVirtual ∨ base = .jit ∨ base = .external then base else spreadTag caller base

/-- The tags of all frames of a stack, root first. -/
def tagStack (space : AddressSpace) (frames : List Frame) : List StackTag :=
  (frames.foldl (fun tags frame => space.tagFrame tags.head? frame :: tags) []).reverse

/-- The tag of the innermost frame of a stack. -/
def topmostTag (space : AddressSpace) (frames : List Frame) : StackTag :=
  (space.tagStack frames).getLast?.getD .c

end AddressSpace
end RuntimeLog
