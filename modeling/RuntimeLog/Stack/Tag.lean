import RuntimeLog.Words
import Std.Data.ExtTreeMap

/-!
# Stack tags

Every frame of a stack belongs to a category, and ticks are counted per
category.
-/

namespace RuntimeLog

/-- The category of a frame. -/
inductive StackTag where
  /-- Native code of the runtime. -/
  | c
  /-- Code which was compiled at run time. -/
  | jit
  /-- Recording, compiling or leaving a trace. -/
  | warmup
  | gcMajor
  | gcMinor
  /-- Kernel code and system libraries. -/
  | external
deriving DecidableEq, Repr

namespace StackTag

/-- All tags in their usual order. -/
def all : List StackTag :=
  [c, jit, warmup, gcMajor, gcMinor, external]

/-- The name of a tag. -/
def name : StackTag → String
  | c => "C"
  | jit => "JIT"
  | warmup => "WARMUP"
  | gcMajor => "GC:MAJOR"
  | gcMinor => "GC:MINOR"
  | external => "EXT"

/-- Whether a tag stands for garbage collection. -/
def isGc : StackTag → Bool
  | gcMajor | gcMinor => true
  | c | jit | warmup | external => false

/-- The place of a tag in the usual order. -/
def rank : StackTag → Nat
  | c => 0
  | jit => 1
  | warmup => 2
  | gcMajor => 3
  | gcMinor => 4
  | external => 5

theorem rank_injective {left right : StackTag} (same : left.rank = right.rank) :
    left = right := by
  cases left <;> cases right <;> first | rfl | cases same

end StackTag

/-- Tags are ordered by their place. -/
instance : Ord StackTag := ⟨compareOn StackTag.rank⟩

instance : Std.TransCmp (α := StackTag) compare :=
  inferInstanceAs (Std.TransCmp (compareOn StackTag.rank))

instance : Std.LawfulEqCmp (α := StackTag) compare where
  compare_self {tag} := Std.ReflCmp.compare_self
  eq_of_compare {left right} same := by
    have ranks : compareOn StackTag.rank left right = .eq := same
    exact StackTag.rank_injective (Nat.compare_eq_eq.mp ranks)

/-- Ticks per tag. -/
abbrev TagCounts : Type := Std.ExtTreeMap StackTag UInt64 compare

namespace TagCounts

/-- Add ticks of a tag. -/
def add (counts : TagCounts) (tag : StackTag) (count : UInt64) : TagCounts :=
  counts.insert tag (Ticks.add (counts.getD tag 0) count)

/-- Add all ticks of other counts. -/
def merge (counts other : TagCounts) : TagCounts :=
  other.toList.foldl (fun counts entry => counts.add entry.1 entry.2) counts

/-- The ticks of all tags. -/
def total (counts : TagCounts) : UInt64 :=
  Ticks.sum (counts.toList.map Prod.snd)

end TagCounts
end RuntimeLog
