/-!
# Sorting

Sorting is stable: entries between which the order makes no difference stay as they
are.  So a sorted list is known by its entries of each sort.
-/

namespace RuntimeLog

variable {α : Type}

/-! ## Ordered lists -/

/-- In an ordered list, every entry is the last one or comes before it. -/
theorem eq_or_before_of_getLast?
    {before : α → α → Prop}
    {entries : List α}
    {entry last : α}
    (ordered : entries.Pairwise before)
    (atEnd : entries.getLast? = some last)
    (member : entry ∈ entries) :
    entry = last ∨ before entry last := by
  obtain ⟨others, rfl⟩ := List.getLast?_eq_some_iff.mp atEnd
  rcases List.mem_append.mp member with other | same
  · exact Or.inr ((List.pairwise_append.mp ordered).2.2 entry other last List.mem_cons_self)
  · exact Or.inl (List.mem_singleton.mp same)

/-- A list which is ordered, and whose entries of each sort are ordered in another
way, is ordered by sort first and in the other way then. -/
theorem pairwise_of_filter
    {κ : Type}
    [DecidableEq κ]
    {sort : α → κ}
    {before within : α → α → Prop}
    {entries : List α}
    (ordered : entries.Pairwise before)
    (each : ∀ wanted, (entries.filter fun entry => sort entry = wanted).Pairwise within) :
    entries.Pairwise fun left right =>
      before left right ∧ (sort left = sort right → within left right) := by
  induction entries with
  | nil => exact List.Pairwise.nil
  | cons first entries inductionHypothesis =>
      obtain ⟨foremost, rest⟩ := List.pairwise_cons.mp ordered
      refine List.pairwise_cons.mpr ⟨fun entry member => ⟨foremost entry member, fun same => ?_⟩, ?_⟩
      · have own := each (sort first)
        rw [List.filter_cons_of_pos (by simp)] at own
        exact (List.pairwise_cons.mp own).1 entry (List.mem_filter.mpr ⟨member, by simp [same]⟩)
      · refine inductionHypothesis rest fun wanted => ?_
        exact (each wanted).sublist ((List.sublist_cons_self first entries).filter _)

/-- Sorting keeps entries in order between which the order makes no difference. -/
theorem filter_mergeSort_of_level
    {comes : α → α → Bool}
    {keep : α → Bool}
    (transitive : ∀ left middle right,
      comes left middle = true → comes middle right = true → comes left right = true)
    (total : ∀ left right, (comes left right || comes right left) = true)
    (level : ∀ left right, keep left = true → keep right = true → comes left right = true)
    (entries : List α) :
    (entries.mergeSort comes).filter keep = entries.filter keep := by
  have equals : (entries.filter keep).Pairwise fun left right => comes left right = true := by
    apply List.Pairwise.imp_of_mem _
      (List.pairwise_of_forall (R := fun _ _ => True) fun _ _ => trivial)
    intro left right leftMember rightMember _
    exact level left right (List.mem_filter.mp leftMember).2 (List.mem_filter.mp rightMember).2
  -- sorting keeps a sorted sublist, and there are no more entries which are kept
  have kept :=
    (List.sublist_mergeSort transitive total equals List.filter_sublist).filter keep
  rw [List.filter_filter] at kept
  simp only [Bool.and_self] at kept
  have sameLength := ((List.mergeSort_perm entries comes).filter keep).length_eq
  exact (kept.eq_of_length sameLength.symm).symm

/-! ## Sorting by address -/

section Address

variable {address : α → UInt64} {bound : UInt64} {entries : List α} {entry : α}

/-- In a list which is sorted by address, the entries at or below a bound come
first. -/
theorem mem_takeWhile_of_le
    (sorted : entries.Pairwise fun left right => address left ≤ address right)
    (member : entry ∈ entries)
    (within : address entry ≤ bound) :
    entry ∈ entries.takeWhile fun entry => address entry ≤ bound := by
  induction entries with
  | nil => cases member
  | cons first others inductionHypothesis =>
      obtain ⟨least, rest⟩ := List.pairwise_cons.mp sorted
      rcases List.mem_cons.mp member with rfl | behind
      · rw [List.takeWhile_cons_of_pos (by simpa using within)]
        exact List.mem_cons_self
      · have firstWithin := UInt64.le_trans (least entry behind) within
        rw [List.takeWhile_cons_of_pos (by simpa using firstWithin)]
        exact List.mem_cons_of_mem _ (inductionHypothesis rest behind)

/-- The order by address is transitive. -/
theorem transitive_address (left middle right : α)
    (first : decide (address left ≤ address middle) = true)
    (second : decide (address middle ≤ address right) = true) :
    decide (address left ≤ address right) = true := by
  simp only [decide_eq_true_eq] at first second ⊢
  exact UInt64.le_trans first second

/-- The order by address compares all entries. -/
theorem total_address (left right : α) :
    (decide (address left ≤ address right) || decide (address right ≤ address left)) = true := by
  simpa using UInt64.le_total (address left) (address right)

/-- Entries which are sorted by address are in the order of their addresses. -/
theorem pairwise_mergeSort (entries : List α) :
    (entries.mergeSort fun left right => address left ≤ address right).Pairwise
      fun left right => address left ≤ address right := by
  have sorted : (entries.mergeSort fun left right => address left ≤ address right).Pairwise
      fun left right => decide (address left ≤ address right) = true :=
    List.pairwise_mergeSort transitive_address total_address entries
  exact sorted.imp of_decide_eq_true

/-- Sorting by address keeps the entries of each address in order. -/
theorem filter_mergeSort (entries : List α) (wanted : UInt64) :
    (entries.mergeSort fun left right => address left ≤ address right).filter
        (fun entry => address entry == wanted) =
      entries.filter fun entry => address entry == wanted := by
  apply filter_mergeSort_of_level transitive_address total_address
  intro left right here there
  rw [beq_iff_eq] at here there
  simp [here, there]

/-- A sorted list is determined by its entries of each address. -/
theorem eq_of_filter_eq
    {others : List α}
    (sorted : entries.Pairwise fun left right => address left ≤ address right)
    (otherSorted : others.Pairwise fun left right => address left ≤ address right)
    (same : ∀ wanted,
      entries.filter (fun entry => address entry == wanted) =
        others.filter fun entry => address entry == wanted) :
    entries = others := by
  induction entries generalizing others with
  | nil =>
      symm
      apply List.eq_nil_iff_forall_not_mem.mpr
      intro entry member
      have nothing := List.filter_eq_nil_iff.mp (same (address entry)).symm entry member
      simp at nothing
  | cons first entries inductionHypothesis =>
      cases others with
      | nil => simpa using same (address first)
      | cons otherFirst others =>
          obtain ⟨least, rest⟩ := List.pairwise_cons.mp sorted
          obtain ⟨otherLeast, otherRest⟩ := List.pairwise_cons.mp otherSorted
          -- both lists start with an entry of the least address
          have above : address otherFirst ≤ address first := by
            have member : first ∈ otherFirst :: others := by
              have here := congrArg (first ∈ ·) (same (address first))
              simpa using here
            rcases List.mem_cons.mp member with rfl | behind
            · exact UInt64.le_refl _
            · exact otherLeast first behind
          have below : address first ≤ address otherFirst := by
            have member : otherFirst ∈ first :: entries := by
              have here := congrArg (otherFirst ∈ ·) (same (address otherFirst))
              simpa using here
            rcases List.mem_cons.mp member with rfl | behind
            · exact UInt64.le_refl _
            · exact least otherFirst behind
          have level := UInt64.le_antisymm below above
          have equal : first = otherFirst := by
            have here := same (address first)
            rw [List.filter_cons_of_pos (by simp), List.filter_cons_of_pos (by simp [level])] at here
            exact (List.cons.inj here).1
          subst equal
          refine congrArg (first :: ·) (inductionHypothesis rest otherRest fun wanted => ?_)
          have here := same wanted
          rw [List.filter_cons, List.filter_cons] at here
          split at here
          · exact (List.cons.inj here).2
          · exact here

/-- The entries to be kept can be chosen before or after sorting. -/
theorem filter_keep_mergeSort (address : α → UInt64) (entries : List α) (keep : α → Bool) :
    (entries.mergeSort fun left right => address left ≤ address right).filter keep =
      (entries.filter keep).mergeSort fun left right => address left ≤ address right := by
  refine eq_of_filter_eq ((pairwise_mergeSort entries).filter keep) (pairwise_mergeSort _) ?_
  intro wanted
  have exchange (entries : List α) :
      (entries.filter keep).filter (fun entry => address entry == wanted) =
        (entries.filter fun entry => address entry == wanted).filter keep := by
    rw [List.filter_filter, List.filter_filter]
    simp only [Bool.and_comm]
  rw [exchange, filter_mergeSort, filter_mergeSort, exchange]

/-- Entries of which one is marked. -/
def marked (before after : List α) (entry : α) : List (α × Bool) :=
  before.map (fun other => (other, false)) ++ (entry, true) :: after.map fun other => (other, false)

theorem map_fst_marked (before after : List α) (entry : α) :
    (marked before after entry).map Prod.fst = before ++ entry :: after := by
  simp [marked, Function.comp_def]

theorem filter_marked (before after : List α) (entry : α) :
    (marked before after entry).filter Prod.snd = [(entry, true)] := by
  have nothing (others : List α) : (others.map fun other => (other, false)).filter Prod.snd = [] := by
    simp
  rw [marked, List.filter_append, List.filter_cons_of_pos rfl, nothing, nothing, List.nil_append]

theorem map_fst_filter_marked (before after : List α) (entry : α) :
    ((marked before after entry).filter fun other => !other.2).map Prod.fst = before ++ after := by
  have all (others : List α) :
      ((others.map fun other => (other, false)).filter fun other => !other.2) =
        others.map fun other => (other, false) := by simp
  rw [marked, List.filter_append, List.filter_cons_of_neg (by simp), all, all]
  simp [Function.comp_def]

/-- What is behind the marked entry of a list is known. -/
theorem eq_behind_of_marked
    {before after lower upper : List (α × Bool)}
    {entry other : α}
    (unmarked : ∀ pair ∈ before, pair.2 = false)
    (lowerUnmarked : ∀ pair ∈ lower, pair.2 = false)
    (same : lower ++ (other, true) :: upper = before ++ (entry, true) :: after) :
    upper = after := by
  have ends := congrArg (List.dropWhile fun pair => !pair.2) same
  rw [List.dropWhile_append_of_pos (by simpa using lowerUnmarked),
    List.dropWhile_append_of_pos (by simpa using unmarked),
    List.dropWhile_cons_of_neg (by simp), List.dropWhile_cons_of_neg (by simp)] at ends
  exact (List.cons.inj ends).2

/-- One more entry takes a place among the sorted others and leaves them as they are.
Entries of the same address stay behind it only if they were behind it before. -/
theorem exists_mergeSort_insert (address : α → UInt64) (before after : List α) (entry : α) :
    ∃ lower upper,
      ((before ++ entry :: after).mergeSort fun left right => address left ≤ address right) =
        lower ++ entry :: upper ∧
      ((before ++ after).mergeSort fun left right => address left ≤ address right) =
        lower ++ upper ∧
      ∀ other ∈ upper, address other = address entry → other ∈ after := by
  -- an equal entry may be there already, so the additional one is marked
  have sorts (entries : List (α × Bool)) :
      (entries.mergeSort fun left right => address left.1 ≤ address right.1).map Prod.fst =
        (entries.map Prod.fst).mergeSort fun left right => address left ≤ address right :=
    List.map_mergeSort fun _ _ _ _ => rfl
  have alone := filter_keep_mergeSort (address ∘ Prod.fst) (marked before after entry) Prod.snd
  have others := filter_keep_mergeSort (address ∘ Prod.fst) (marked before after entry)
    fun other => !other.2
  have level := @filter_mergeSort _ (address ∘ Prod.fst) (marked before after entry)
    (address entry)
  simp only [Function.comp_apply] at alone others level
  rw [filter_marked, List.mergeSort_singleton] at alone
  have all := sorts (marked before after entry)
  rw [map_fst_marked] at all
  have rest := congrArg (List.map Prod.fst) others
  rw [sorts, map_fst_filter_marked] at rest
  generalize ((marked before after entry).mergeSort
    fun left right => address left.1 ≤ address right.1) = sorted at alone all rest level
  obtain ⟨lower, upper, rfl, lowerUnmarked, _, upperUnmarked⟩ :=
    List.filter_eq_cons_iff.mp alone
  rw [List.filter_eq_nil_iff] at upperUnmarked
  have plain (entries : List (α × Bool)) (unmarked : ∀ other ∈ entries, ¬ other.2 = true) :
      (entries.filter fun other => !other.2) = entries := by
    apply List.filter_eq_self.mpr
    intro other member
    simpa using unmarked other member
  refine ⟨lower.map Prod.fst, upper.map Prod.fst, ?_, ?_, ?_⟩
  · rw [← all, List.map_append, List.map_cons]
  · rw [← rest, List.filter_append, List.filter_cons_of_neg (by simp), plain lower lowerUnmarked,
      plain upper upperUnmarked, List.map_append]
  · intro other member same
    obtain ⟨pair, behind, rfl⟩ := List.mem_map.mp member
    -- what is level with the marked entry stays on its side of it
    rw [marked, List.filter_append, List.filter_append, List.filter_cons_of_pos (by simp),
      List.filter_cons_of_pos (by simp)] at level
    have ends := eq_behind_of_marked (by simp)
      (fun pair kept => by simpa using lowerUnmarked pair (List.mem_filter.mp kept).1) level
    have kept : pair ∈ upper.filter fun other => address other.1 == address entry :=
      List.mem_filter.mpr ⟨behind, by simp [same]⟩
    rw [ends] at kept
    obtain ⟨other, listed, rfl⟩ := List.mem_map.mp (List.mem_filter.mp kept).1
    exact listed

end Address

end RuntimeLog
