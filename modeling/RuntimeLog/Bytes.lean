/-!
# Byte strings

Logs are strings of bytes, and every multi-byte number in them is written
least significant byte first.  This module fixes the representation of byte
strings, cuts prefixes of a known length off them, and writes and reads
little-endian numbers.
-/

namespace RuntimeLog

/-- A finite string of bytes. -/
abbrev Bytes := List UInt8

namespace Bytes

/-- Whether there are at least `count` bytes.  No more than those are looked at. -/
def hasAtLeast : Nat → Bytes → Bool
  | 0, _ => true
  | _ + 1, [] => false
  | count + 1, _ :: rest => hasAtLeast count rest

theorem hasAtLeast_iff (count : Nat) (bytes : Bytes) :
    hasAtLeast count bytes ↔ count ≤ bytes.length := by
  induction count generalizing bytes with
  | zero => simp [hasAtLeast]
  | succ count inductionHypothesis =>
      cases bytes with
      | nil => simp [hasAtLeast]
      | cons byte rest => simp [hasAtLeast, inductionHypothesis]

/-- The first `count` bytes and the rest, if there are that many. -/
def splitExactly (count : Nat) (bytes : Bytes) : Option (Bytes × Bytes) :=
  if hasAtLeast count bytes then some (bytes.take count, bytes.drop count) else none

/-- Cutting succeeds exactly on strings which are long enough. -/
theorem splitExactly_eq (count : Nat) (bytes : Bytes) :
    splitExactly count bytes =
      if count ≤ bytes.length then some (bytes.take count, bytes.drop count) else none := by
  simp [splitExactly, hasAtLeast_iff]

/-- A string in front of any other one is cut off whole. -/
@[simp] theorem splitExactly_append (piece rest : Bytes) :
    splitExactly piece.length (piece ++ rest) = some (piece, rest) := by
  simp [splitExactly_eq]

end Bytes

namespace LittleEndian

/-- The `width` low bytes of a number, least significant byte first. -/
def encode : Nat → Nat → Bytes
  | 0, _ => []
  | width + 1, number => UInt8.ofNat number :: encode width (number / 256)

/-- The number which a byte string denotes, least significant byte first. -/
def decode : Bytes → Nat
  | [] => 0
  | byte :: rest => byte.toNat + 256 * decode rest

@[simp] theorem length_encode (width number : Nat) : (encode width number).length = width := by
  induction width generalizing number with
  | zero => rfl
  | succ width inductionHypothesis => simp [encode, inductionHypothesis]

end LittleEndian
end RuntimeLog
