import RuntimeLog.Text.Quoted
import Std.Data.ExtTreeMap

/-!
# Frames

A frame is a sampled address after it was resolved.  Frames with the same name
and sort are one function, whatever address they were sampled at.
-/

namespace RuntimeLog

/-- A resolved frame of a stack. -/
structure Frame where
  name : String
  address : UInt64
  /-- The number of its library in the address space. -/
  library : Option Nat
  /-- Whether it is an interpreter level function. -/
  isVirtual : Bool
deriving DecidableEq, Repr

/-- What tells functions apart. -/
structure FrameKey where
  name : String
  isVirtual : Bool
deriving DecidableEq, Repr

/-- Functions are ordered by name, native ones before those of the interpreter level. -/
instance : Ord FrameKey :=
  ⟨compareLex (compareOn FrameKey.name) (compareOn FrameKey.isVirtual)⟩

instance : Std.TransCmp (α := FrameKey) compare :=
  inferInstanceAs
    (Std.TransCmp (compareLex (compareOn FrameKey.name) (compareOn FrameKey.isVirtual)))

instance : Std.LawfulEqCmp (α := FrameKey) compare where
  compare_self {key} := Std.ReflCmp.compare_self
  eq_of_compare {left right} same := by
    have both : (compareOn FrameKey.name left right).then
        (compareOn FrameKey.isVirtual left right) = .eq := same
    obtain ⟨names, sorts⟩ := Ordering.then_eq_eq.mp both
    cases left
    cases right
    have sameName := Std.LawfulEqOrd.compare_eq_iff_eq.mp names
    have sameSort := Std.LawfulEqOrd.compare_eq_iff_eq.mp sorts
    simp_all

namespace Frame

/-- The function of a frame. -/
def key (frame : Frame) : FrameKey :=
  { name := frame.name, isVirtual := frame.isVirtual }

/-- A frame for an address about which nothing is known. -/
def unknown (address : UInt64) : Frame :=
  { name := Text.hex address.toNat, address, library := none, isVirtual := false }

/-- A frame with nothing but a name. -/
def named (name : String) (isVirtual : Bool) : Frame :=
  { name, address := 0, library := none, isVirtual }

end Frame
end RuntimeLog
