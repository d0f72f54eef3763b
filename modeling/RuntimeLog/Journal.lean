/-!
# Journals

A journal is a list which grows at its end.  Decoding a log builds many of them,
so appending must not look at the older entries: the entries are kept newest
first.
-/

namespace RuntimeLog

/-- A list which grows at its end. -/
structure Journal (α : Type) where
  /-- The entries, newest first. -/
  newestFirst : List α
deriving DecidableEq, Repr

namespace Journal

variable {α β : Type}

/-- The journal without entries. -/
def empty : Journal α := ⟨[]⟩

/-- Append an entry. -/
def push (journal : Journal α) (entry : α) : Journal α :=
  ⟨entry :: journal.newestFirst⟩

/-- The entries in the order in which they were appended. -/
def toList (journal : Journal α) : List α :=
  journal.newestFirst.reverse

/-- The number of entries. -/
def size (journal : Journal α) : Nat :=
  journal.newestFirst.length

/-- Whether there is no entry. -/
def isEmpty (journal : Journal α) : Bool :=
  journal.newestFirst.isEmpty

/-- Keep the entries which pass a test. -/
def filter (journal : Journal α) (keep : α → Bool) : Journal α :=
  ⟨journal.newestFirst.filter keep⟩

/-- Change the newest entry which passes a test, looking from the newest one. -/
def modifyNewestFirst (chosen : α → Bool) (change : α → α) : List α → List α
  | [] => []
  | entry :: older =>
      if chosen entry then change entry :: older
      else entry :: modifyNewestFirst chosen change older

/-- Change the newest entry which passes a test. -/
def modify (journal : Journal α) (chosen : α → Bool) (change : α → α) : Journal α :=
  ⟨modifyNewestFirst chosen change journal.newestFirst⟩

/-- The newest entry which passes a test. -/
def find? (journal : Journal α) (chosen : α → Bool) : Option α :=
  journal.newestFirst.find? chosen

@[simp] theorem toList_empty : (empty : Journal α).toList = [] := rfl

@[simp] theorem toList_push (journal : Journal α) (entry : α) :
    (journal.push entry).toList = journal.toList ++ [entry] := by
  simp [push, toList]

@[simp] theorem length_toList (journal : Journal α) : journal.toList.length = journal.size := by
  simp [toList, size]

@[simp] theorem size_push (journal : Journal α) (entry : α) :
    (journal.push entry).size = journal.size + 1 := by
  simp [push, size]

@[simp] theorem toList_filter (journal : Journal α) (keep : α → Bool) :
    (journal.filter keep).toList = journal.toList.filter keep := by
  simp [filter, toList]

/-- A changed entry is found where it was, as long as it passes the test. -/
theorem find?_modify
    {chosen : α → Bool}
    {change : α → α}
    (kept : ∀ entry, chosen entry → chosen (change entry))
    (journal : Journal α) :
    (journal.modify chosen change).find? chosen = (journal.find? chosen).map change := by
  obtain ⟨entries⟩ := journal
  simp only [modify, find?]
  induction entries with
  | nil => rfl
  | cons entry older inductionHypothesis =>
      rw [modifyNewestFirst]
      by_cases passes : chosen entry
      · rw [if_pos passes, List.find?_cons_of_pos passes, List.find?_cons_of_pos (kept _ passes)]
        rfl
      · rw [if_neg passes, List.find?_cons_of_neg passes, List.find?_cons_of_neg passes,
          inductionHypothesis]

/-- An entry with some key is found as it was before another one was changed, and
with the change if it is the one which was changed. -/
theorem find?_modify_key
    {κ : Type}
    [DecidableEq κ]
    {key : α → κ}
    {change : α → α}
    (same : ∀ entry, key (change entry) = key entry)
    (journal : Journal α)
    (chosen wanted : κ) :
    (journal.modify (fun entry => key entry == chosen) change).find?
        (fun entry => key entry == wanted) =
      (journal.find? fun entry => key entry == wanted).map fun entry =>
        if wanted = chosen then change entry else entry := by
  by_cases equal : wanted = chosen
  · subst equal
    have kept : ∀ entry, key entry == wanted → key (change entry) == wanted := by
      intro entry found
      rw [same]
      exact found
    simp only [if_true]
    exact find?_modify kept journal
  · simp only [if_neg equal, Option.map_id']
    obtain ⟨entries⟩ := journal
    simp only [modify, find?]
    induction entries with
    | nil => rfl
    | cons entry older inductionHypothesis =>
        rw [modifyNewestFirst]
        split
        · rename_i passes
          have other : ¬ (key entry == wanted) = true := fun found =>
            equal ((beq_iff_eq.mp found).symm.trans (beq_iff_eq.mp passes))
          have changed : ¬ (key (change entry) == wanted) = true := by
            rw [same]
            exact other
          simp only [List.find?_cons, other, changed]
        · simp only [List.find?_cons, inductionHypothesis]

/-- Changes of the entries with two keys can be made in either order if those of one
entry can. -/
theorem modify_modify_key
    {κ : Type}
    [DecidableEq κ]
    {key : α → κ}
    {first second : α → α}
    (sameFirst : ∀ entry, key (first entry) = key entry)
    (sameSecond : ∀ entry, key (second entry) = key entry)
    (swap : ∀ entry, second (first entry) = first (second entry))
    (journal : Journal α)
    (one other : κ) :
    (journal.modify (fun entry => key entry == one) first).modify
        (fun entry => key entry == other) second =
      (journal.modify (fun entry => key entry == other) second).modify
        (fun entry => key entry == one) first := by
  obtain ⟨entries⟩ := journal
  unfold modify
  congr 1
  dsimp only
  induction entries with
  | nil => rfl
  | cons entry older inductionHypothesis =>
      by_cases here : key entry == one
      all_goals by_cases there : key entry == other
      all_goals simp [modifyNewestFirst, here, there, sameFirst, sameSecond, swap,
        inductionHypothesis]

/-- An entry can be changed before all entries are converted or behind that. -/
theorem modify_map
    {chosen : α → Bool}
    {change convert : α → α}
    (same : ∀ entry, chosen (convert entry) = chosen entry)
    (swap : ∀ entry, change (convert entry) = convert (change entry))
    (journal : Journal α) :
    (⟨journal.newestFirst.map convert⟩ : Journal α).modify chosen change =
      ⟨(journal.modify chosen change).newestFirst.map convert⟩ := by
  obtain ⟨entries⟩ := journal
  unfold modify
  congr 1
  dsimp only
  induction entries with
  | nil => rfl
  | cons entry older inductionHypothesis =>
      rw [List.map_cons, modifyNewestFirst, modifyNewestFirst, same]
      by_cases passes : chosen entry
      · rw [if_pos passes, if_pos passes, swap, List.map_cons]
      · rw [if_neg passes, if_neg passes, inductionHypothesis, List.map_cons]

/-- A change is not seen by a view which is the same before and after it. -/
theorem filterMap_toList_modify
    {view : α → Option β}
    {chosen : α → Bool}
    {change : α → α}
    (same : ∀ entry, view (change entry) = view entry)
    (journal : Journal α) :
    (journal.modify chosen change).toList.filterMap view = journal.toList.filterMap view := by
  obtain ⟨entries⟩ := journal
  simp only [modify, toList, List.filterMap_reverse]
  congr 1
  induction entries with
  | nil => rfl
  | cons entry older inductionHypothesis =>
      rw [modifyNewestFirst]
      split
      · simp only [List.filterMap_cons, same]
      · simp only [List.filterMap_cons, inductionHypothesis]

/-- A change is not seen in the list of views which are the same before and after
it. -/
theorem map_newestFirst_modify
    {view : α → β}
    {chosen : α → Bool}
    {change : α → α}
    (same : ∀ entry, view (change entry) = view entry)
    (journal : Journal α) :
    (journal.modify chosen change).newestFirst.map view = journal.newestFirst.map view := by
  have unseen : ∀ entry, (some ∘ view) (change entry) = (some ∘ view) entry :=
    fun entry => congrArg some (same entry)
  have views := @filterMap_toList_modify _ _ _ chosen _ unseen journal
  rw [List.filterMap_eq_map, toList, toList, List.map_reverse, List.map_reverse] at views
  exact List.reverse_inj.mp views

theorem map_toList_modify
    {view : α → β}
    {chosen : α → Bool}
    {change : α → α}
    (same : ∀ entry, view (change entry) = view entry)
    (journal : Journal α) :
    (journal.modify chosen change).toList.map view = journal.toList.map view := by
  rw [toList, toList, List.map_reverse, List.map_reverse, map_newestFirst_modify same]

end Journal
end RuntimeLog
