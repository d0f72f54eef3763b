import RuntimeLog.Proofs.Sorting
import RuntimeLog.Words

/-!
# Nearest entries

The nearest entry of a list below a bound is the last one of those with the
greatest address which is not above the bound.  It does not depend on the order
of entries with different addresses, and in a sorted list it is the last entry
which is not above the bound.
-/

namespace RuntimeLog

variable {α : Type}

/-- Whether no other entry at or below a bound has a greater address. -/
def isNearest (address : α → UInt64) (bound : UInt64) (entries : List α) (entry : α) : Bool :=
  address entry ≤ bound &&
    entries.all fun other => address other ≤ address entry || bound < address other

/-- The last of the entries with the greatest address at or below a bound. -/
def nearest? (address : α → UInt64) (bound : UInt64) (entries : List α) : Option α :=
  (entries.filter (isNearest address bound entries)).getLast?

variable {address : α → UInt64} {bound : UInt64} {entries : List α} {entry : α}

theorem isNearest_iff :
    isNearest address bound entries entry ↔
      address entry ≤ bound ∧
        ∀ other ∈ entries, address other ≤ bound → address other ≤ address entry := by
  simp only [isNearest, Bool.and_eq_true, decide_eq_true_eq, List.all_eq_true, Bool.or_eq_true]
  refine and_congr Iff.rfl (forall_congr' fun other => forall_congr' fun _ => ?_)
  constructor
  · rintro (below | above) within
    · exact below
    · exact absurd within (UInt64.not_le.mpr above)
  · intro below
    by_cases within : address other ≤ bound
    · exact Or.inl (below within)
    · exact Or.inr (UInt64.not_le.mp within)

/-- The entries which are as near as one of them are those with its address. -/
theorem filter_isNearest (near : isNearest address bound entries entry) (member : entry ∈ entries) :
    entries.filter (isNearest address bound entries) =
      entries.filter fun other => address other == address entry := by
  apply List.filter_congr
  intro other elsewhere
  obtain ⟨within, greatest⟩ := isNearest_iff.mp near
  rw [Bool.eq_iff_iff, beq_iff_eq, isNearest_iff]
  constructor
  · rintro ⟨otherWithin, otherGreatest⟩
    exact UInt64.le_antisymm (greatest other elsewhere otherWithin)
      (otherGreatest entry member within)
  · intro same
    rw [same]
    exact ⟨within, greatest⟩

/-- What it means to be the nearest entry. -/
theorem nearest?_eq_some_iff :
    nearest? address bound entries = some entry ↔
      isNearest address bound entries entry ∧
        (entries.filter fun other => address other == address entry).getLast? = some entry := by
  unfold nearest?
  constructor
  · intro last
    obtain ⟨member, near⟩ := List.mem_filter.mp (List.mem_of_getLast? last)
    rw [filter_isNearest near member] at last
    exact ⟨near, last⟩
  · rintro ⟨near, last⟩
    have member := (List.mem_filter.mp (List.mem_of_getLast? last)).1
    rw [filter_isNearest near member]
    exact last

/-- The nearest entry is one of the entries. -/
theorem mem_of_nearest? (nearest : nearest? address bound entries = some entry) :
    entry ∈ entries :=
  (List.mem_filter.mp (List.mem_of_getLast? nearest)).1

/-- Among entries of which one is at or below a bound, one is nearest. -/
theorem exists_isNearest (within : ∃ entry ∈ entries, address entry ≤ bound) :
    ∃ entry ∈ entries, isNearest address bound entries entry := by
  induction entries with
  | nil => simp at within
  | cons first others inductionHypothesis =>
      by_cases more : ∃ entry ∈ others, address entry ≤ bound
      · obtain ⟨best, member, near⟩ := inductionHypothesis more
        obtain ⟨bestWithin, greatest⟩ := isNearest_iff.mp near
        by_cases better : address first ≤ bound ∧ address best ≤ address first
        · refine ⟨first, List.mem_cons_self, isNearest_iff.mpr ⟨better.1, ?_⟩⟩
          intro other elsewhere otherWithin
          rcases List.mem_cons.mp elsewhere with rfl | behind
          · exact UInt64.le_refl _
          · exact UInt64.le_trans (greatest other behind otherWithin) better.2
        · refine ⟨best, List.mem_cons_of_mem _ member, isNearest_iff.mpr ⟨bestWithin, ?_⟩⟩
          intro other elsewhere otherWithin
          rcases List.mem_cons.mp elsewhere with rfl | behind
          · rcases UInt64.le_total (address other) (address best) with below | above
            · exact below
            · exact absurd ⟨otherWithin, above⟩ better
          · exact greatest other behind otherWithin
      · have above : ∀ entry ∈ others, ¬ address entry ≤ bound := by simpa using more
        obtain ⟨entry, member, entryWithin⟩ := within
        rcases List.mem_cons.mp member with rfl | behind
        · refine ⟨entry, List.mem_cons_self, isNearest_iff.mpr ⟨entryWithin, ?_⟩⟩
          intro other elsewhere otherWithin
          rcases List.mem_cons.mp elsewhere with rfl | behind
          · exact UInt64.le_refl _
          · exact absurd otherWithin (above other behind)
        · exact absurd entryWithin (above entry behind)

/-- There is no nearest entry if all of them are above the bound. -/
theorem nearest?_eq_none_iff :
    nearest? address bound entries = none ↔ ∀ entry ∈ entries, bound < address entry := by
  unfold nearest?
  rw [List.getLast?_eq_none_iff, List.filter_eq_nil_iff]
  constructor
  · intro nothing entry member
    apply UInt64.not_le.mp
    intro within
    obtain ⟨best, bestMember, near⟩ := exists_isNearest ⟨entry, member, within⟩
    exact nothing best bestMember near
  · intro above entry member near
    exact UInt64.not_le.mpr (above entry member) (isNearest_iff.mp near).1

/-- The nearest entry depends on the order of the entries of each address only. -/
theorem nearest?_congr
    {others : List α}
    (same : ∀ wanted,
      entries.filter (fun entry => address entry == wanted) =
        others.filter fun entry => address entry == wanted) :
    nearest? address bound entries = nearest? address bound others := by
  have mem_iff (entry : α) : entry ∈ entries ↔ entry ∈ others := by
    have here := congrArg (entry ∈ ·) (same (address entry))
    simpa using here
  ext entry
  rw [nearest?_eq_some_iff, nearest?_eq_some_iff, isNearest_iff, isNearest_iff,
    same (address entry)]
  simp only [mem_iff]

/-- The nearest entry of a list of converted entries is the converted nearest
one. -/
theorem nearest?_map {β : Type} (convert : β → α) (others : List β) :
    nearest? address bound (others.map convert) =
      (nearest? (address ∘ convert) bound others).map convert := by
  have same : (isNearest address bound (others.map convert)) ∘ convert =
      isNearest (address ∘ convert) bound others := by
    funext other
    simp [isNearest, List.all_map, Function.comp_def]
  unfold nearest?
  rw [List.filter_map, List.getLast?_map, same]

/-! ## Sorted lists -/

/-- The nearest entry of a sorted list is the last one which is not above the
bound. -/
theorem getLast?_takeWhile
    (sorted : entries.Pairwise fun left right => address left ≤ address right) :
    (entries.takeWhile fun entry => address entry ≤ bound).getLast? =
      nearest? address bound entries := by
  induction entries with
  | nil => rfl
  | cons first others inductionHypothesis =>
      obtain ⟨least, rest⟩ := List.pairwise_cons.mp sorted
      by_cases within : address first ≤ bound
      · rw [List.takeWhile_cons_of_pos (by simpa using within), List.getLast?_cons,
          inductionHypothesis rest]
        symm
        apply nearest?_eq_some_iff.mpr
        cases found : nearest? address bound others with
        | none =>
            have above := nearest?_eq_none_iff.mp found
            have farther : others.filter (fun other => address other == address first) = [] := by
              apply List.filter_eq_nil_iff.mpr
              intro other member same
              rw [beq_iff_eq] at same
              exact UInt64.not_le.mpr (above other member) (same ▸ within)
            rw [Option.getD_none, isNearest_iff]
            refine ⟨⟨within, ?_⟩, by simp [farther]⟩
            intro other member otherWithin
            rcases List.mem_cons.mp member with rfl | behind
            · exact UInt64.le_refl _
            · exact absurd otherWithin (UInt64.not_le.mpr (above other behind))
        | some nearest =>
            obtain ⟨near, last⟩ := nearest?_eq_some_iff.mp found
            obtain ⟨nearestWithin, greatest⟩ := isNearest_iff.mp near
            have member := (List.mem_filter.mp (List.mem_of_getLast? last)).1
            rw [Option.getD_some, isNearest_iff]
            refine ⟨⟨nearestWithin, ?_⟩, ?_⟩
            · intro other elsewhere otherWithin
              rcases List.mem_cons.mp elsewhere with rfl | behind
              · exact least nearest member
              · exact greatest other behind otherWithin
            · rw [List.filter_cons]
              split
              · rw [List.getLast?_cons, last]
                rfl
              · exact last
      · rw [List.takeWhile_cons_of_neg (by simpa using within)]
        symm
        apply nearest?_eq_none_iff.mpr
        intro entry member
        have above := UInt64.not_le.mp within
        rcases List.mem_cons.mp member with rfl | behind
        · exact above
        · exact UInt64.lt_of_lt_of_le above (least entry behind)

/-- Sorting by address does not change which entry of those to be kept is
nearest. -/
theorem nearest?_filter_mergeSort (entries : List α) (keep : α → Bool) :
    nearest? address bound
        ((entries.mergeSort fun left right => address left ≤ address right).filter keep) =
      nearest? address bound (entries.filter keep) := by
  rw [filter_keep_mergeSort]
  exact nearest?_congr (filter_mergeSort _)

/-! ## Exposed entries -/

/-- An entry between others is exposed to a bound if none of those before it is
nearer to the bound, and none behind it is as near. -/
def Exposed (address : α → UInt64) (bound : UInt64) (before after : List α) (entry : α) : Prop :=
  (∀ other ∈ before, address other ≤ bound → address other ≤ address entry) ∧
    ∀ other ∈ after, address other ≤ bound → address other < address entry

variable {before after : List α}

instance : Decidable (Exposed address bound before after entry) :=
  inferInstanceAs (Decidable (_ ∧ _))

/-- An exposed entry is the nearest one. -/
theorem Exposed.nearest?_eq
    (exposed : Exposed address bound before after entry)
    (within : address entry ≤ bound) :
    nearest? address bound (before ++ entry :: after) = some entry := by
  apply nearest?_eq_some_iff.mpr
  constructor
  · refine isNearest_iff.mpr ⟨within, ?_⟩
    intro other member otherWithin
    rcases List.mem_append.mp member with earlier | later
    · exact exposed.1 other earlier otherWithin
    · rcases List.mem_cons.mp later with rfl | behind
      · exact UInt64.le_refl _
      · exact UInt64.le_of_lt (exposed.2 other behind otherWithin)
  · have farther : after.filter (fun other => address other == address entry) = [] := by
      apply List.filter_eq_nil_iff.mpr
      intro other member same
      rw [beq_iff_eq] at same
      have nearer := exposed.2 other member (same ▸ within)
      rw [same] at nearer
      exact UInt64.lt_irrefl _ nearer
    simp [List.filter_append, farther]

/-- Where an entry is not exposed, another one is nearest. -/
theorem exists_nearest?_of_not_exposed
    (within : address entry ≤ bound)
    (hidden : ¬ Exposed address bound before after entry) :
    ∃ other ∈ before ++ after,
      nearest? address bound (before ++ entry :: after) = some other ∧
        address entry ≤ address other ∧ address other ≤ bound := by
  cases nearest : nearest? address bound (before ++ entry :: after) with
  | none =>
      have above := nearest?_eq_none_iff.mp nearest entry (by simp)
      exact absurd within (UInt64.not_le.mpr above)
  | some found =>
      obtain ⟨near, last⟩ := nearest?_eq_some_iff.mp nearest
      obtain ⟨foundWithin, greatest⟩ := isNearest_iff.mp near
      have above : address entry ≤ address found := greatest entry (by simp) within
      refine ⟨found, ?_, rfl, above, foundWithin⟩
      by_cases same : address found = address entry
      · -- no entry before is nearer, so that one behind is as near
        obtain ⟨other, behind, otherWithin, notBelow⟩ :
            ∃ other ∈ after, address other ≤ bound ∧ address entry ≤ address other := by
          apply Classical.byContradiction
          intro none
          refine hidden ⟨fun other earlier otherWithin => ?_, fun other behind otherWithin => ?_⟩
          · rw [← same]
            exact greatest other (by simp [earlier]) otherWithin
          · apply UInt64.not_le.mp
            exact fun notBelow => none ⟨other, behind, otherWithin, notBelow⟩
        have equal : address other = address found := by
          apply UInt64.le_antisymm (greatest other (by simp [behind]) otherWithin)
          rw [same]
          exact notBelow
        have nonempty : after.filter (fun other => address other == address found) ≠ [] :=
          List.ne_nil_of_mem (List.mem_filter.mpr ⟨behind, by simp [equal]⟩)
        have lastBehind := List.getLast?_eq_some_getLast nonempty
        rw [List.filter_append, List.filter_cons_of_pos (by simp [same]), List.getLast?_append,
          List.getLast?_cons_of_ne_nil nonempty, lastBehind, Option.some_or] at last
        rw [last] at lastBehind
        exact List.mem_append_right _ (List.mem_filter.mp (List.mem_of_getLast? lastBehind)).1
      · have member := (List.mem_filter.mp (List.mem_of_getLast? last)).1
        rcases List.mem_append.mp member with earlier | later
        · exact List.mem_append_left _ earlier
        · rcases List.mem_cons.mp later with rfl | behind
          · exact absurd rfl same
          · exact List.mem_append_right _ behind

/-! ## Maps -/

namespace AddressMap

/-- The entries of a map are in the order of their addresses. -/
theorem pairwise_toList (map : AddressMap α) :
    map.toList.Pairwise fun left right => left.1 < right.1 :=
  Std.ExtTreeMap.ordered_keys_toList.imp Std.compare_eq_lt.mp

/-- The entry at or below an address is the nearest one. -/
theorem floor?_eq_nearest? (map : AddressMap α) (address : UInt64) :
    floor? map address = nearest? Prod.fst address map.toList :=
  getLast?_takeWhile ((pairwise_toList map).imp UInt64.le_of_lt)

/-- All entries of a map have addresses of a kind if all its addresses are. -/
theorem forall_mem_toList_iff {map : AddressMap α} {kind : UInt64 → Prop} :
    (∀ entry ∈ map.toList, kind entry.1) ↔ ∀ address, address ∈ map → kind address := by
  constructor
  · intro all address member
    obtain ⟨value, found⟩ := Option.isSome_iff_exists.mp
      (Std.ExtTreeMap.mem_iff_isSome_getElem?.mp member)
    exact all (address, value) (Std.ExtTreeMap.mem_toList_iff_getElem?_eq_some.mpr found)
  · rintro all ⟨address, value⟩ member
    have found := Std.ExtTreeMap.mem_toList_iff_getElem?_eq_some.mp member
    exact all address (Std.ExtTreeMap.mem_iff_isSome_getElem?.mpr (by rw [found]; rfl))

/-- No entry of a map is nearest if all its addresses are above the bound. -/
theorem nearest?_toList_eq_none_iff {map : AddressMap α} {bound : UInt64} :
    nearest? Prod.fst bound map.toList = none ↔ ∀ address, address ∈ map → bound < address :=
  nearest?_eq_none_iff.trans forall_mem_toList_iff

/-- An entry of a map is nearest if its address is the greatest one at or below
the bound. -/
theorem nearest?_toList_eq_some_iff {map : AddressMap α} {address bound : UInt64} {value : α} :
    nearest? Prod.fst bound map.toList = some (address, value) ↔
      map[address]? = some value ∧ address ≤ bound ∧
        ∀ other, other ∈ map → other ≤ bound → other ≤ address := by
  have greatest : (∀ other, other ∈ map → other ≤ bound → other ≤ address) ↔
      ∀ entry ∈ map.toList, entry.1 ≤ bound → entry.1 ≤ address :=
    forall_mem_toList_iff.symm
  constructor
  · intro nearest
    obtain ⟨within, all⟩ := isNearest_iff.mp (nearest?_eq_some_iff.mp nearest).1
    exact ⟨Std.ExtTreeMap.mem_toList_iff_getElem?_eq_some.mp (mem_of_nearest? nearest), within,
      greatest.mpr all⟩
  · rintro ⟨found, within, all⟩
    have member := Std.ExtTreeMap.mem_toList_iff_getElem?_eq_some.mpr found
    refine nearest?_eq_some_iff.mpr ⟨isNearest_iff.mpr ⟨within, greatest.mp all⟩, ?_⟩
    -- the entry is the only one of its address
    cases last : (map.toList.filter fun other => other.1 == address).getLast? with
    | none =>
        have nothing := List.filter_eq_nil_iff.mp (List.getLast?_eq_none_iff.mp last)
        exact absurd (beq_self_eq_true address) (nothing _ member)
    | some other =>
        obtain ⟨elsewhere, same⟩ := List.mem_filter.mp (List.mem_of_getLast? last)
        obtain ⟨otherAddress, otherValue⟩ := other
        cases beq_iff_eq.mp same
        have otherFound := Std.ExtTreeMap.mem_toList_iff_getElem?_eq_some.mp elsewhere
        cases found.symm.trans otherFound
        rfl

/-- The least address of a map is not above any of its addresses. -/
theorem least?_le
    {map : AddressMap α}
    {first address : UInt64}
    (least : least? map = some first)
    (member : address ∈ map) :
    first ≤ address := by
  obtain ⟨others, keys⟩ := List.head?_eq_some_iff.mp least
  have sorted : map.keys.Pairwise fun left right => compare left right = .lt :=
    Std.ExtTreeMap.ordered_keys
  rw [keys] at sorted
  have listed := Std.ExtTreeMap.mem_keys.mpr member
  rw [keys] at listed
  rcases List.mem_cons.mp listed with rfl | behind
  · exact UInt64.le_refl _
  · exact UInt64.le_of_lt (Std.compare_eq_lt.mp ((List.pairwise_cons.mp sorted).1 address behind))

/-- No address of a map is above the greatest one. -/
theorem le_greatest?
    {map : AddressMap α}
    {last address : UInt64}
    (greatest : greatest? map = some last)
    (member : address ∈ map) :
    address ≤ last := by
  obtain ⟨others, keys⟩ := List.getLast?_eq_some_iff.mp greatest
  have sorted : map.keys.Pairwise fun left right => compare left right = .lt :=
    Std.ExtTreeMap.ordered_keys
  rw [keys] at sorted
  have listed := Std.ExtTreeMap.mem_keys.mpr member
  rw [keys] at listed
  rcases List.mem_append.mp listed with before | same
  · exact UInt64.le_of_lt (Std.compare_eq_lt.mp
      ((List.pairwise_append.mp sorted).2.2 address before last List.mem_cons_self))
  · rw [List.mem_singleton.mp same]
    exact UInt64.le_refl _

end AddressMap

end RuntimeLog
