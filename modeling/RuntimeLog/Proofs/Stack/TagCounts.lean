import RuntimeLog.Proofs.Ticks
import RuntimeLog.Stack.Tag

/-!
# Ticks per tag

Counts per tag are saturating sums.  It does not matter in which order or in which
groups ticks were added to them.
-/

namespace RuntimeLog
namespace TagCounts

/-- The counts of ticks with their tags. -/
def gather (entries : List (StackTag × UInt64)) : TagCounts :=
  entries.foldl (fun counts entry => counts.add entry.1 entry.2) ∅

/-- The ticks of a tag. -/
def ticksOf (tag : StackTag) (entries : List (StackTag × UInt64)) : List UInt64 :=
  Ticks.countsAt tag entries

variable {counts other : TagCounts} {tag : StackTag} {entries : List (StackTag × UInt64)}

@[simp] theorem ticksOf_nil (tag : StackTag) : ticksOf tag [] = [] := rfl

theorem ticksOf_cons (tag : StackTag) (entry : StackTag × UInt64)
    (entries : List (StackTag × UInt64)) :
    ticksOf tag (entry :: entries) =
      if entry.1 = tag then entry.2 :: ticksOf tag entries else ticksOf tag entries :=
  Ticks.countsAt_cons tag entry entries

@[simp] theorem ticksOf_append (tag : StackTag) (left right : List (StackTag × UInt64)) :
    ticksOf tag (left ++ right) = ticksOf tag left ++ ticksOf tag right :=
  Ticks.countsAt_append tag left right

theorem ticksOf_perm
    {left right : List (StackTag × UInt64)}
    (same : left.Perm right)
    (tag : StackTag) :
    (ticksOf tag left).Perm (ticksOf tag right) :=
  (same.filter _).map _

/-- What counts become when ticks are added one after the other. -/
theorem getElem?_foldl_add (counts : TagCounts) (entries : List (StackTag × UInt64))
    (tag : StackTag) :
    (entries.foldl (fun counts entry => counts.add entry.1 entry.2) counts)[tag]? =
      if ticksOf tag entries = [] then counts[tag]?
      else
        some (Ticks.cut ((counts[tag]?.getD 0).toNat + Ticks.exactSum (ticksOf tag entries))) :=
  Ticks.getElem?_foldl_addAt counts entries tag

theorem getElem?_gather (entries : List (StackTag × UInt64)) (tag : StackTag) :
    (gather entries)[tag]? =
      if ticksOf tag entries = [] then none
      else some (Ticks.cut (Ticks.exactSum (ticksOf tag entries))) := by
  unfold gather
  rw [getElem?_foldl_add]
  simp

/-- A gathered count is the sum of the ticks, cut once. -/
theorem toNat_getD_gather (entries : List (StackTag × UInt64)) (tag : StackTag) :
    ((gather entries).getD tag 0).toNat =
      min (UInt64.size - 1) (Ticks.exactSum (ticksOf tag entries)) := by
  rw [Std.ExtTreeMap.getD_eq_getD_getElem?, getElem?_gather]
  by_cases nothing : ticksOf tag entries = []
  · rw [if_pos nothing, nothing]
    rfl
  · rw [if_neg nothing, Option.getD_some, Ticks.toNat_cut]

/-- The order of ticks is of no consequence. -/
theorem gather_perm {left right : List (StackTag × UInt64)} (same : left.Perm right) :
    gather left = gather right := by
  apply Std.ExtTreeMap.ext_getElem?
  intro tag
  have both := ticksOf_perm same tag
  rw [getElem?_gather, getElem?_gather, Ticks.exactSum_perm both]
  by_cases nothing : ticksOf tag left = []
  · rw [if_pos nothing, if_pos (List.nil_perm.mp (nothing ▸ both))]
  · have some : ticksOf tag right ≠ [] := fun none => nothing (List.perm_nil.mp (none ▸ both))
    rw [if_neg nothing, if_neg some]

/-- Fewer ticks are gathered to smaller counts. -/
theorem getD_gather_le
    {left right : List (StackTag × UInt64)}
    (fewer : left.Sublist right)
    (tag : StackTag) :
    (gather left).getD tag 0 ≤ (gather right).getD tag 0 := by
  have sums : Ticks.exactSum (ticksOf tag left) ≤ Ticks.exactSum (ticksOf tag right) :=
    Ticks.exactSum_le_of_sublist ((fewer.filter _).map _)
  rw [UInt64.le_iff_toNat_le, toNat_getD_gather, toNat_getD_gather]
  omega

@[simp] theorem add_gather (entries : List (StackTag × UInt64)) (tag : StackTag) (count : UInt64) :
    (gather entries).add tag count = gather (entries ++ [(tag, count)]) := by
  simp [gather]

theorem ticksOf_eq_nil (foreign : ∀ entry ∈ entries, entry.1 ≠ tag) :
    ticksOf tag entries = [] := by
  unfold ticksOf Ticks.countsAt
  rw [List.map_eq_nil_iff, List.filter_eq_nil_iff]
  intro entry member own
  exact foreign entry member (of_decide_eq_true own)

theorem ticksOf_eq_singleton
    {count : UInt64}
    (distinct : entries.Pairwise fun earlier later => earlier.1 ≠ later.1)
    (member : (tag, count) ∈ entries) :
    ticksOf tag entries = [count] := by
  induction distinct with
  | nil => cases member
  | @cons entry entries others distinct inductionHypothesis =>
      rw [ticksOf_cons]
      rcases List.mem_cons.mp member with rfl | later
      · have foreign : ∀ other ∈ entries, other.1 ≠ tag := fun other member =>
          (others other member).symm
        rw [if_pos rfl, ticksOf_eq_nil foreign]
      · rw [if_neg (others _ later), inductionHypothesis later]

/-- Counts hold one entry for every tag which they have. -/
theorem ticksOf_toList (counts : TagCounts) (tag : StackTag) :
    ticksOf tag counts.toList = counts[tag]?.toList := by
  cases found : counts[tag]? with
  | none =>
      apply ticksOf_eq_nil
      rintro ⟨other, count⟩ member rfl
      rw [Std.ExtTreeMap.mem_toList_iff_getElem?_eq_some.mp member] at found
      cases found
  | some count =>
      refine ticksOf_eq_singleton ?_ (Std.ExtTreeMap.mem_toList_iff_getElem?_eq_some.mpr found)
      apply Std.ExtTreeMap.distinct_keys_toList.imp
      intro earlier later distinct same
      exact distinct (Std.LawfulEqCmp.compare_eq_iff_eq.mpr same)

/-- A sum over all tags. -/
def tagSum (summand : StackTag → Nat) : Nat :=
  summand .c + summand .jit + summand .warmup + summand .gcMajor + summand .gcMinor +
    summand .external

theorem tagSum_mono
    {left right : StackTag → Nat}
    (fewer : ∀ tag, left tag ≤ right tag) :
    tagSum left ≤ tagSum right := by
  have c := fewer .c
  have jit := fewer .jit
  have warmup := fewer .warmup
  have gcMajor := fewer .gcMajor
  have gcMinor := fewer .gcMinor
  have external := fewer .external
  simp only [tagSum]
  omega

theorem exactSum_eq_tagSum (entries : List (StackTag × UInt64)) :
    Ticks.exactSum (entries.map Prod.snd) =
      tagSum fun tag => Ticks.exactSum (ticksOf tag entries) := by
  induction entries with
  | nil => rfl
  | cons entry entries inductionHypothesis =>
      obtain ⟨tag, count⟩ := entry
      rw [List.map_cons, Ticks.exactSum, inductionHypothesis]
      cases tag <;> simp [tagSum, ticksOf_cons, Ticks.exactSum] <;> omega

/-- Merging adds the counts of every tag. -/
theorem getElem?_merge (counts other : TagCounts) (tag : StackTag) :
    (counts.merge other)[tag]? =
      match other[tag]? with
      | none => counts[tag]?
      | some count => some (Ticks.add (counts[tag]?.getD 0) count) := by
  unfold merge
  rw [getElem?_foldl_add, ticksOf_toList]
  cases other[tag]? with
  | none => rfl
  | some count => simp [Ticks.exactSum, Ticks.add_eq_cut]

/-- Counts which are merged into none are what they were. -/
@[simp] theorem empty_merge (counts : TagCounts) : merge ∅ counts = counts := by
  apply Std.ExtTreeMap.ext_getElem?
  intro tag
  rw [getElem?_merge]
  cases counts[tag]? with
  | none => simp
  | some count => simp [Ticks.add_eq_cut]

/-- Ticks were gathered if there are counts. -/
theorem gather_eq_empty_iff {entries : List (StackTag × UInt64)} :
    gather entries = ∅ ↔ entries = [] := by
  constructor
  · intro nothing
    cases entries with
    | nil => rfl
    | cons entry entries =>
        have count := getElem?_gather (entry :: entries) entry.1
        rw [nothing, ticksOf_cons, if_pos rfl, if_neg (List.cons_ne_nil _ _)] at count
        simp at count
  · rintro rfl
    rfl

/-- Merging gathered ticks is gathering all of them. -/
theorem merge_gather (left right : List (StackTag × UInt64)) :
    (gather left).merge (gather right) = gather (left ++ right) := by
  apply Std.ExtTreeMap.ext_getElem?
  intro tag
  rw [getElem?_merge, getElem?_gather, getElem?_gather, getElem?_gather, ticksOf_append,
    Ticks.exactSum_append]
  by_cases noneRight : ticksOf tag right = []
  · rw [if_pos noneRight, noneRight, List.append_nil]
    rfl
  · have noneBoth : ticksOf tag left ++ ticksOf tag right ≠ [] := fun nothing =>
      noneRight (List.append_eq_nil_iff.mp nothing).2
    simp only [if_neg noneRight, if_neg noneBoth, Ticks.add_eq_cut, Ticks.toNat_cut]
    by_cases noneLeft : ticksOf tag left = []
    · rw [if_pos noneLeft, noneLeft]
      simp only [Option.getD_none, UInt64.toNat_zero, Ticks.exactSum, Nat.zero_add, Ticks.cut_min]
    · rw [if_neg noneLeft, Option.getD_some, Ticks.toNat_cut, Ticks.cut_min_add_min]

/-- The ticks of all tags are the sum of those of every tag, cut once. -/
theorem toNat_total (counts : TagCounts) :
    counts.total.toNat =
      min (UInt64.size - 1) (tagSum fun tag => (counts.getD tag 0).toNat) := by
  have perTag (tag : StackTag) :
      (counts.getD tag 0).toNat = Ticks.exactSum (ticksOf tag counts.toList) := by
    rw [ticksOf_toList, Std.ExtTreeMap.getD_eq_getD_getElem?]
    cases counts[tag]? <;> simp [Ticks.exactSum]
  unfold total
  rw [Ticks.toNat_sum, exactSum_eq_tagSum]
  simp only [perTag]

/-- A gathered count is the sum of the ticks of the tag. -/
theorem getD_gather (entries : List (StackTag × UInt64)) (tag : StackTag) :
    (gather entries).getD tag 0 = Ticks.sum (ticksOf tag entries) := by
  apply UInt64.toNat_inj.mp
  rw [toNat_getD_gather, Ticks.toNat_sum]

theorem cut_tagSum_congr
    {left right : StackTag → Nat}
    (same : ∀ tag, Ticks.cut (left tag) = Ticks.cut (right tag)) :
    Ticks.cut (tagSum left) = Ticks.cut (tagSum right) := by
  unfold tagSum
  repeat refine Ticks.cut_add_congr ?_ (same _)
  exact same .c

/-- The ticks of all tags together are all ticks which were gathered. -/
theorem total_gather (entries : List (StackTag × UInt64)) :
    (gather entries).total = Ticks.sum (entries.map Prod.snd) := by
  rw [Ticks.sum_eq_cut, exactSum_eq_tagSum]
  apply UInt64.toNat_inj.mp
  rw [toNat_total, ← Ticks.toNat_cut]
  refine congrArg UInt64.toNat (cut_tagSum_congr fun tag => ?_)
  rw [toNat_getD_gather, Ticks.cut_min]

/-- More ticks of every tag are more ticks. -/
theorem total_le_total (fewer : ∀ tag, counts.getD tag 0 ≤ other.getD tag 0) :
    counts.total ≤ other.total := by
  have every (tag : StackTag) : (counts.getD tag 0).toNat ≤ (other.getD tag 0).toNat :=
    UInt64.le_iff_toNat_le.mp (fewer tag)
  have sums := tagSum_mono every
  rw [UInt64.le_iff_toNat_le, toNat_total, toNat_total]
  omega

end TagCounts
end RuntimeLog
