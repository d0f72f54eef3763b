import Mathlib.Data.List.Forall2
import RuntimeLog.Proofs.Sorting
import RuntimeLog.Proofs.Ticks
import RuntimeLog.Stats

/-!
# Ticks of functions

A sample counts once for every function on its stack.  In whatever order the functions
of a stack are listed, and in whatever order those of all stacks are sorted, the same
functions come out on top.
-/

namespace RuntimeLog

/-- Whether a function with some name is on the stack of a sample. -/
def ResolvedSample.Calls (sample : ResolvedSample) (name : String) : Prop :=
  ∃ frame ∈ sample.frames, frame.name = name

instance (sample : ResolvedSample) : DecidablePred sample.Calls := fun name =>
  inferInstanceAs (Decidable (∃ frame ∈ sample.frames, frame.name = name))

namespace Stats

/-- Count ticks for all names of lists, each of them as it is. -/
def countListed (listed : List (List String × UInt64)) : Std.ExtTreeMap String UInt64 compare :=
  listed.foldl
    (fun ticks entry =>
      entry.1.foldl
        (fun ticks name => ticks.insert name (Ticks.add (ticks.getD name 0) entry.2)) ticks)
    ∅

/-- Lists of the names on the stacks of samples: every name of a stack once, in any
order, and the count of the sample. -/
def Lists (listed : List (List String × UInt64)) (samples : List ResolvedSample) : Prop :=
  List.Forall₂
    (fun entry sample =>
      entry.1.Nodup ∧ (∀ name, name ∈ entry.1 ↔ sample.Calls name) ∧ entry.2 = sample.count)
    listed samples

/-- The counts of the samples with a function. -/
def countsOf (samples : List ResolvedSample) (name : String) : List UInt64 :=
  (samples.filter fun sample => sample.Calls name).map ResolvedSample.count

/-- The order of functions: more ticks come first, and functions with equally many are
in the order of their names. -/
def Precedes (left right : String × UInt64) : Prop :=
  right.2 < left.2 ∨ left.2 = right.2 ∧ left.1 < right.1

instance (left right : String × UInt64) : Decidable (Precedes left right) :=
  inferInstanceAs (Decidable (_ ∨ _))

variable {stats : Stats} {samples : List ResolvedSample} {listed : List (List String × UInt64)}
variable {name : String}

/-! ## Counting -/

theorem countListed_eq (listed : List (List String × UInt64)) :
    countListed listed =
      (listed.flatMap fun entry => entry.1.map fun name => (name, entry.2)).foldl
        Ticks.addAt ∅ := by
  unfold countListed
  rw [List.foldl_flatMap]
  simp only [List.foldl_map]
  rfl

/-- A name which is listed once is counted once. -/
theorem countsAt_map {names : List String} (distinct : names.Nodup) (name : String)
    (count : UInt64) :
    Ticks.countsAt name (names.map fun name => (name, count)) =
      if name ∈ names then [count] else [] := by
  induction names with
  | nil => rfl
  | cons first names inductionHypothesis =>
      obtain ⟨foreign, rest⟩ := List.nodup_cons.mp distinct
      rw [List.map_cons, Ticks.countsAt_cons, inductionHypothesis rest]
      by_cases own : first = name
      · subst own
        simp [foreign]
      · have other : name ≠ first := Ne.symm own
        simp [own, other]

/-- The counts of a function are those of the samples with it. -/
theorem Lists.countsAt_eq (lists : Lists listed samples) (name : String) :
    Ticks.countsAt name (listed.flatMap fun entry => entry.1.map fun name => (name, entry.2)) =
      countsOf samples name := by
  induction lists with
  | nil => rfl
  | @cons entry sample listed samples fits _ inductionHypothesis =>
      obtain ⟨distinct, calls, count⟩ := fits
      rw [List.flatMap_cons, Ticks.countsAt_append, inductionHypothesis, countsAt_map distinct]
      by_cases has : sample.Calls name
      · simp [countsOf, has, (calls name).mpr has, count]
      · simp [countsOf, has, mt (calls name).mp has]

/-- The ticks of a function are the sum of the counts of the samples with it. -/
theorem Lists.getElem?_countListed (lists : Lists listed samples) (name : String) :
    (countListed listed)[name]? =
      if countsOf samples name = [] then none
      else some (Ticks.sum (countsOf samples name)) := by
  rw [countListed_eq, Ticks.getElem?_foldl_addAt, lists.countsAt_eq, Ticks.sum_eq_cut]
  simp

/-- The names which are listed for a sample. -/
def namesOf (sample : ResolvedSample) : Std.ExtTreeSet String compare :=
  sample.frames.foldl (fun names frame => names.insert frame.name) ∅

theorem mem_namesOf {sample : ResolvedSample} : name ∈ namesOf sample ↔ sample.Calls name := by
  have collects (frames : List Frame) (names : Std.ExtTreeSet String compare) :
      name ∈ frames.foldl (fun names frame => names.insert frame.name) names ↔
        name ∈ names ∨ ∃ frame ∈ frames, frame.name = name := by
    induction frames generalizing names with
    | nil => simp
    | cons frame frames inductionHypothesis =>
        rw [List.foldl_cons, inductionHypothesis, Std.ExtTreeSet.mem_insert,
          Std.LawfulEqCmp.compare_eq_iff_eq]
        simp only [List.mem_cons, exists_eq_or_imp]
        tauto
  unfold namesOf ResolvedSample.Calls
  rw [collects]
  simp

theorem functionTicks_eq (stats : Stats) :
    stats.functionTicks =
      countListed (stats.samples.map fun sample => ((namesOf sample).toList, sample.count)) := by
  unfold functionTicks countListed
  rw [List.foldl_map]
  rfl

theorem lists_namesOf (samples : List ResolvedSample) :
    Lists (samples.map fun sample => ((namesOf sample).toList, sample.count)) samples := by
  induction samples with
  | nil => exact List.Forall₂.nil
  | cons sample samples inductionHypothesis =>
      refine List.Forall₂.cons ⟨?_, fun name => ?_, rfl⟩ inductionHypothesis
      · exact Std.ExtTreeSet.distinct_toList.imp fun distinct same =>
          distinct (Std.LawfulEqCmp.compare_eq_iff_eq.mpr same)
      · rw [Std.ExtTreeSet.mem_toList, mem_namesOf]

/-- In whatever order names are listed, every function has the same ticks. -/
theorem Lists.countListed_eq (lists : Lists listed stats.samples) :
    countListed listed = stats.functionTicks := by
  apply Std.ExtTreeMap.ext_getElem?
  intro name
  rw [functionTicks_eq, lists.getElem?_countListed,
    (lists_namesOf stats.samples).getElem?_countListed]

/-- The functions which are counted are those on the stacks, with the counts of their
samples. -/
theorem mem_toList_functionTicks {count : UInt64} :
    (name, count) ∈ stats.functionTicks.toList ↔
      (∃ sample ∈ stats.samples, sample.Calls name) ∧
        count = Ticks.sum (countsOf stats.samples name) := by
  have called : countsOf stats.samples name = [] ↔
      ¬ ∃ sample ∈ stats.samples, sample.Calls name := by
    unfold countsOf
    rw [List.map_eq_nil_iff, List.filter_eq_nil_iff]
    simp
  rw [Std.ExtTreeMap.mem_toList_iff_getElem?_eq_some, functionTicks_eq,
    (lists_namesOf stats.samples).getElem?_countListed]
  split
  · rename_i nothing
    simp [called.mp nothing]
  · rename_i something
    rw [called, Decidable.not_not] at something
    simp [something, eq_comm]

/-! ## Ranking -/

/-- All functions, those with the most ticks first. -/
def ranking (stats : Stats) : List (String × UInt64) :=
  stats.functionTicks.toList.mergeSort fun left right => right.2 ≤ left.2

theorem topFunctions_eq (stats : Stats) (limit : Nat) :
    stats.topFunctions limit = stats.ranking.take limit := rfl

theorem perm_ranking (stats : Stats) : stats.ranking.Perm stats.functionTicks.toList :=
  List.mergeSort_perm _ _

/-- The ranking is in order. -/
theorem pairwise_ranking (stats : Stats) : stats.ranking.Pairwise Precedes := by
  have transitive (left middle right : String × UInt64)
      (first : decide (middle.2 ≤ left.2) = true) (second : decide (right.2 ≤ middle.2) = true) :
      decide (right.2 ≤ left.2) = true := by
    simp only [decide_eq_true_eq] at first second ⊢
    exact UInt64.le_trans second first
  have total (left right : String × UInt64) :
      (decide (right.2 ≤ left.2) || decide (left.2 ≤ right.2)) = true := by
    simpa using UInt64.le_total right.2 left.2
  have byTicks : stats.ranking.Pairwise fun left right => right.2 ≤ left.2 :=
    (List.pairwise_mergeSort transitive total _).imp of_decide_eq_true
  -- functions with the same ticks stay in the order in which the map has them
  have byName : ∀ wanted, (stats.ranking.filter fun entry => entry.2 = wanted).Pairwise
      fun left right => left.1 < right.1 := by
    intro wanted
    unfold ranking
    rw [filter_mergeSort_of_level transitive total]
    · have named : stats.functionTicks.toList.Pairwise
          fun left right => compare left.1 right.1 = .lt :=
        Std.ExtTreeMap.ordered_keys_toList
      exact (named.filter _).imp fun before => compareOfLessAndEq_eq_lt.mp before
    · intro left right here there
      rw [decide_eq_true_eq] at here there
      simp [here, there]
  refine (pairwise_of_filter byTicks byName).imp fun {left right} both => ?_
  by_cases same : left.2 = right.2
  · exact Or.inr ⟨same, both.2 same⟩
  · exact Or.inl (UInt64.lt_of_le_of_ne both.1 (Ne.symm same))

/-- No two functions precede each other. -/
theorem not_precedes_of_precedes {left right : String × UInt64} (before : Precedes left right) :
    ¬ Precedes right left := by
  rintro (more | ⟨same, earlier⟩)
  · rcases before with fewer | ⟨level, _⟩
    · exact UInt64.lt_asymm fewer more
    · exact UInt64.ne_of_lt more level
  · rcases before with fewer | ⟨_, later⟩
    · exact UInt64.ne_of_lt fewer same
    · exact String.lt_asymm later earlier

/-- Functions which are in order are ranked, wherever their order came from. -/
theorem Lists.eq_ranking
    {ranked : List (String × UInt64)}
    (lists : Lists listed stats.samples)
    (same : ranked.Perm (countListed listed).toList)
    (ordered : ranked.Pairwise Precedes) :
    ranked = stats.ranking := by
  rw [lists.countListed_eq] at same
  refine List.Perm.eq_of_pairwise ?_ ordered stats.pairwise_ranking
    (same.trans stats.perm_ranking.symm)
  intro left right _ _ before after
  exact absurd after (not_precedes_of_precedes before)

end Stats
end RuntimeLog
