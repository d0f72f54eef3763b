import RuntimeLog.Bytes

/-!
# Code patches

Machine code may be overwritten after it was logged, for instance to lead a
guard to a bridge.  Laying the patches over a snippet gives the code as it was
at some time.
-/

namespace RuntimeLog

/-- Bytes which were written over machine code. -/
structure CodePatch where
  /-- The time of the record. -/
  time : Nat
  address : UInt64
  bytes : Bytes
deriving DecidableEq, Repr

namespace CodePatch

/-- The address behind a patch, or the greatest address if there is none. -/
def finish (patch : CodePatch) : UInt64 :=
  UInt64.ofNat (min (UInt64.size - 1) (patch.address.toNat + patch.bytes.length))

/-- Lay bytes over a string from a position on; what reaches past the end of the
string is cut off. -/
def splice (code : Bytes) (start : Nat) (bytes : Bytes) : Bytes :=
  code.take start ++ bytes.take (code.length - start) ++ code.drop (start + bytes.length)

/-- Lay a patch over code at an address.  Only their common addresses count. -/
def overlay (code : Bytes) (address : Nat) (patch : CodePatch) : Bytes :=
  let start := patch.address.toNat
  if address ≤ start then splice code (start - address) patch.bytes
  else splice code 0 (patch.bytes.drop (address - start))

/-- Whether a patch counts at a time for a region of code. -/
def counts (patch : CodePatch) (regionStart regionEnd : UInt64) (time : Nat) : Bool :=
  patch.time ≤ time && regionStart ≤ patch.address && patch.address < regionEnd

/-- Lay all patches over a snippet which start in the region around it and were
made until a time, in the order of the list. -/
def applyAll
    (snippet : Bytes)
    (address regionStart regionEnd : UInt64)
    (patches : List CodePatch)
    (time : Nat) : Bytes :=
  (patches.filter fun patch => patch.counts regionStart regionEnd time).foldl
    (fun code patch => overlay code address.toNat patch) snippet

end CodePatch
end RuntimeLog
