import RuntimeLog.Words
import Std.Data.ExtTreeMap

/-!
# Sums of ticks

Since every step of a saturating sum is cut at the same number, it does not matter in
which order or in which groups the ticks are added: the result is the sum, cut once.
-/

namespace RuntimeLog
namespace Ticks

/-- The sum of counts as a number. -/
def exactSum : List UInt64 → Nat
  | [] => 0
  | count :: counts => count.toNat + exactSum counts

/-- The count next to a number. -/
def cut (number : Nat) : UInt64 :=
  UInt64.ofNat (min (UInt64.size - 1) number)

@[simp] theorem toNat_cut (number : Nat) :
    (cut number).toNat = min (UInt64.size - 1) number := by
  unfold cut
  rw [UInt64.toNat_ofNat']
  simp only [UInt64.size]
  omega

theorem add_eq_cut (left right : UInt64) : add left right = cut (left.toNat + right.toNat) := by
  apply UInt64.toNat_inj.mp
  rw [toNat_add, toNat_cut]

/-- A count is small enough as it is. -/
@[simp] theorem cut_toNat (count : UInt64) : cut count.toNat = count := by
  apply UInt64.toNat_inj.mp
  rw [toNat_cut]
  have bound := count.toNat_lt_size
  omega

/-- A sum which was cut before is cut to the same count. -/
theorem cut_min_add (earlier further : Nat) :
    cut (min (UInt64.size - 1) earlier + further) = cut (earlier + further) := by
  apply UInt64.toNat_inj.mp
  rw [toNat_cut, toNat_cut]
  omega

theorem cut_min (number : Nat) : cut (min (UInt64.size - 1) number) = cut number :=
  cut_min_add number 0

theorem cut_min_add_min (left right : Nat) :
    cut (min (UInt64.size - 1) left + min (UInt64.size - 1) right) = cut (left + right) := by
  rw [cut_min_add, Nat.add_comm, cut_min_add, Nat.add_comm]

@[simp] theorem exactSum_append (left right : List UInt64) :
    exactSum (left ++ right) = exactSum left + exactSum right := by
  induction left with
  | nil => simp [exactSum]
  | cons count left inductionHypothesis =>
      rw [List.cons_append, exactSum, exactSum, inductionHypothesis, Nat.add_assoc]

theorem exactSum_perm {left right : List UInt64} (same : left.Perm right) :
    exactSum left = exactSum right := by
  induction same with
  | nil => rfl
  | cons count same inductionHypothesis => rw [exactSum, exactSum, inductionHypothesis]
  | swap first second counts =>
      simp only [exactSum]
      omega
  | trans earlier later earlierHypothesis laterHypothesis =>
      rw [earlierHypothesis, laterHypothesis]

theorem exactSum_le_of_sublist {left right : List UInt64} (fewer : left.Sublist right) :
    exactSum left ≤ exactSum right := by
  induction fewer with
  | slnil => exact Nat.le_refl _
  | cons count fewer inductionHypothesis =>
      rw [exactSum]
      omega
  | cons_cons count fewer inductionHypothesis =>
      rw [exactSum, exactSum]
      omega

/-- A saturating sum is the sum, cut once. -/
theorem toNat_sum (counts : List UInt64) :
    (sum counts).toNat = min (UInt64.size - 1) (exactSum counts) := by
  have starting (start : UInt64) :
      (counts.foldl add start).toNat = min (UInt64.size - 1) (start.toNat + exactSum counts) := by
    induction counts generalizing start with
    | nil =>
        have bound := start.toNat_lt
        simp only [List.foldl_nil, exactSum, UInt64.size]
        omega
    | cons count counts inductionHypothesis =>
        rw [List.foldl_cons, inductionHypothesis, toNat_add, exactSum]
        omega
  have all := starting 0
  rw [UInt64.toNat_zero, Nat.zero_add] at all
  exact all

/-- A saturating sum is the sum, cut once. -/
theorem sum_eq_cut (counts : List UInt64) : sum counts = cut (exactSum counts) := by
  apply UInt64.toNat_inj.mp
  rw [toNat_sum, toNat_cut]

/-- The order of the summands is of no consequence. -/
theorem sum_perm {left right : List UInt64} (same : left.Perm right) : sum left = sum right := by
  rw [sum_eq_cut, sum_eq_cut, exactSum_perm same]

/-- Summands can be replaced by ones which are cut to the same counts. -/
theorem cut_add_congr
    {left right otherLeft otherRight : Nat}
    (sameLeft : cut left = cut otherLeft)
    (sameRight : cut right = cut otherRight) :
    cut (left + right) = cut (otherLeft + otherRight) := by
  have cuts (number : Nat) : min (UInt64.size - 1) number = (cut number).toNat :=
    (toNat_cut number).symm
  rw [← cut_min_add_min left, ← cut_min_add_min otherLeft, cuts left, cuts right, sameLeft,
    sameRight, cuts otherLeft, cuts otherRight]

/-- It does not matter in which groups ticks are added. -/
theorem sum_flatMap {α : Type} (groups : List α) (counts : α → List UInt64) :
    sum (groups.flatMap counts) = sum (groups.map fun group => sum (counts group)) := by
  rw [sum_eq_cut, sum_eq_cut]
  induction groups with
  | nil => rfl
  | cons group groups inductionHypothesis =>
      rw [List.flatMap_cons, exactSum_append, List.map_cons, exactSum]
      refine cut_add_congr ?_ inductionHypothesis
      rw [toNat_sum, cut_min]

/-! ## Ticks by key -/

section Keys

variable {κ : Type} [DecidableEq κ]

/-- The counts at a key. -/
def countsAt (key : κ) (entries : List (κ × UInt64)) : List UInt64 :=
  (entries.filter fun entry => entry.1 = key).map Prod.snd

theorem countsAt_cons (key : κ) (entry : κ × UInt64) (entries : List (κ × UInt64)) :
    countsAt key (entry :: entries) =
      if entry.1 = key then entry.2 :: countsAt key entries else countsAt key entries := by
  by_cases own : entry.1 = key <;> simp [countsAt, own]

@[simp] theorem countsAt_append (key : κ) (left right : List (κ × UInt64)) :
    countsAt key (left ++ right) = countsAt key left ++ countsAt key right := by
  simp [countsAt]

variable [Ord κ] [Std.TransCmp (compare : κ → κ → Ordering)]
variable [Std.LawfulEqCmp (compare : κ → κ → Ordering)]

/-- Add ticks at a key. -/
def addAt (ticks : Std.ExtTreeMap κ UInt64 compare) (entry : κ × UInt64) :
    Std.ExtTreeMap κ UInt64 compare :=
  ticks.insert entry.1 (add (ticks.getD entry.1 0) entry.2)

theorem getElem?_addAt (ticks : Std.ExtTreeMap κ UInt64 compare) (entry : κ × UInt64) (key : κ) :
    (addAt ticks entry)[key]? =
      if entry.1 = key then some (add (ticks[entry.1]?.getD 0) entry.2) else ticks[key]? := by
  unfold addAt
  rw [Std.ExtTreeMap.getElem?_insert, Std.ExtTreeMap.getD_eq_getD_getElem?]
  simp only [Std.LawfulEqCmp.compare_eq_iff_eq]

/-- What ticks become when more are added one after the other. -/
theorem getElem?_foldl_addAt (ticks : Std.ExtTreeMap κ UInt64 compare)
    (entries : List (κ × UInt64)) (key : κ) :
    (entries.foldl addAt ticks)[key]? =
      if countsAt key entries = [] then ticks[key]?
      else some (cut ((ticks[key]?.getD 0).toNat + exactSum (countsAt key entries))) := by
  induction entries generalizing ticks with
  | nil => rfl
  | cons entry entries inductionHypothesis =>
      rw [List.foldl_cons, inductionHypothesis, getElem?_addAt, countsAt_cons]
      by_cases own : entry.1 = key
      · subst own
        simp only [if_true, List.cons_ne_nil, if_false, exactSum]
        by_cases more : countsAt entry.1 entries = []
        · rw [if_pos more, more, exactSum, Nat.add_zero, add_eq_cut]
        · rw [if_neg more, Option.getD_some, toNat_add, cut_min_add, Nat.add_assoc]
      · simp only [own, if_false]

end Keys

end Ticks
end RuntimeLog
