import Std.Data.ExtTreeMap

/-!
# Words

Numbers of one machine word: how wide an address is in a log, maps from addresses, and
counts whose sums stop at the greatest word.
-/

namespace RuntimeLog

/-! ## Widths -/

/-- The width of address-sized fields. -/
inductive WordSize where
  | four
  | eight
deriving DecidableEq, Repr

namespace WordSize

/-- The header byte of a word size. -/
def flag : WordSize → UInt8
  | eight => 0
  | four => 1

/-- The word size of a header byte. -/
def ofFlag? (flag : UInt8) : Option WordSize :=
  if flag == 0 then some eight else if flag == 1 then some four else none

/-- The number of bytes of an address. -/
def bytes : WordSize → Nat
  | four => 4
  | eight => 8

/-- The word size with its name in words. -/
def name : WordSize → String
  | four => "Four"
  | eight => "Eight"

@[simp] theorem ofFlag?_flag (size : WordSize) : ofFlag? size.flag = some size := by
  cases size <;> rfl

end WordSize

/-! ## Maps by address -/

/-- A finite map from addresses, in ascending order. -/
abbrev AddressMap (α : Type) : Type := Std.ExtTreeMap UInt64 α compare

namespace AddressMap

variable {α : Type}

/-- The entry with the greatest address at or below the given one. -/
def floor? (map : AddressMap α) (address : UInt64) : Option (UInt64 × α) :=
  (map.toList.takeWhile fun entry => entry.1 ≤ address).getLast?

/-- The lowest address of a map. -/
def least? (map : AddressMap α) : Option UInt64 :=
  map.keys.head?

/-- The greatest address of a map. -/
def greatest? (map : AddressMap α) : Option UInt64 :=
  map.keys.getLast?

/-- An entry stays if its address is there already. -/
theorem getElem?_insertIfNew (map : AddressMap α) (address other : UInt64) (value : α) :
    (map.insertIfNew address value)[other]? =
      map[other]?.or (if address = other then some value else none) := by
  rw [Std.ExtTreeMap.getElem?_insertIfNew]
  by_cases equal : address = other
  · subst equal
    by_cases known : address ∈ map
    · simp [known]
    · simp [known]
  · simp [equal]

end AddressMap

/-! ## Saturating counts -/

namespace Ticks

/-- The greatest tick count. -/
def greatest : UInt64 := UInt64.ofNat (UInt64.size - 1)

/-- Addition which stops at the greatest count. -/
def add (left right : UInt64) : UInt64 :=
  if left.toNat + right.toNat < UInt64.size then left + right else greatest

/-- Multiplication which stops at the greatest count. -/
def multiply (left right : UInt64) : UInt64 :=
  if left.toNat * right.toNat < UInt64.size then left * right else greatest

/-- The sum of a list of counts, stopping at the greatest one. -/
def sum (counts : List UInt64) : UInt64 :=
  counts.foldl add 0

/-- Saturating addition is addition of numbers, cut at the greatest count. -/
@[simp] theorem toNat_add (left right : UInt64) :
    (add left right).toNat = min (UInt64.size - 1) (left.toNat + right.toNat) := by
  unfold add greatest
  simp only [UInt64.size]
  split
  · rw [UInt64.toNat_add]
    omega
  · rw [UInt64.toNat_ofNat']
    omega

end Ticks

end RuntimeLog
