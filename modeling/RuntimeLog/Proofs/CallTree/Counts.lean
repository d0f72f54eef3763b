import RuntimeLog.Proofs.CallTree.Folding
import RuntimeLog.Proofs.Stack.Tagging

/-!
# Counts of sampled stacks

The counts in a call tree are sums over the stacks which were added to it, in
whatever order they came.
-/

namespace RuntimeLog

/-- A stack which was sampled some number of times in some address space. -/
structure SampledStack where
  space : AddressSpace
  /-- The root comes first. -/
  frames : List Frame
  count : UInt64

namespace SampledStack

/-- The functions of a stack. -/
def keys (stack : SampledStack) : List FrameKey :=
  stack.frames.map Frame.key

/-- The tag of the innermost frame of a stack which is not empty. -/
def topmostTag? (stack : SampledStack) : Option StackTag :=
  (stack.space.tagStack stack.frames).getLast?

/-- The stack with the tags of its frames. -/
def tagged (stack : SampledStack) : TaggedStack :=
  { frames := stack.frames
    tags := stack.space.tagStack stack.frames
    count := stack.count }

/-- The counts of the stacks with some topmost tag whose functions have some
property. -/
def countsWhere
    (property : List FrameKey → Prop)
    [DecidablePred property]
    (tag : StackTag)
    (samples : List SampledStack) : List UInt64 :=
  (samples.filter fun stack => property stack.keys ∧ stack.topmostTag? = some tag).map count

theorem tagStack_eq_nil {space : AddressSpace} {frames : List Frame} :
    space.tagStack frames = [] ↔ frames = [] := by
  rw [← List.length_eq_zero_iff, AddressSpace.length_tagStack, List.length_eq_zero_iff]

variable {property : List FrameKey → Prop} [DecidablePred property]

theorem countsWhere_cons (tag : StackTag) (stack : SampledStack) (samples : List SampledStack) :
    countsWhere property tag (stack :: samples) =
      (if property stack.keys ∧ stack.topmostTag? = some tag then [stack.count] else []) ++
        countsWhere property tag samples := by
  by_cases chosen : property stack.keys ∧ stack.topmostTag? = some tag <;>
    simp [countsWhere, chosen]

/-- The ticks of a tag among those of tagged stacks. -/
theorem ticksOf_creditsWhere (tag : StackTag) (samples : List SampledStack) :
    TagCounts.ticksOf tag (TaggedStack.creditsWhere property (samples.map tagged)) =
      countsWhere property tag samples := by
  induction samples with
  | nil => rfl
  | cons stack samples inductionHypothesis =>
      rw [List.map_cons, ← List.singleton_append, TaggedStack.creditsWhere_append,
        TagCounts.ticksOf_append, inductionHypothesis, countsWhere_cons,
        TaggedStack.creditsWhere_singleton]
      congr 1
      have keys : stack.tagged.keys = stack.keys := rfl
      have credit : stack.tagged.credit? = stack.topmostTag?.map fun tag => (tag, stack.count) :=
        rfl
      rw [keys, credit]
      by_cases holds : property stack.keys
      · cases topmost : stack.topmostTag? with
        | none => simp [holds]
        | some other => by_cases own : other = tag <;> simp [holds, own, TagCounts.ticksOf_cons]
      · simp [holds]

/-- The root passes on what the stacks say which are not empty. -/
theorem countsWhere_nil_prefix (tag : StackTag) (samples : List SampledStack) :
    countsWhere (fun keys => [] <+: keys) tag samples = countsWhere (· ≠ []) tag samples := by
  rw [countsWhere, countsWhere]
  congr 1
  apply List.filter_congr
  intro stack _
  have tagged : stack.topmostTag? = some tag → stack.keys ≠ [] := by
    intro topmost empty
    have none : stack.space.tagStack stack.frames = [] :=
      tagStack_eq_nil.mpr (List.map_eq_nil_iff.mp empty)
    unfold topmostTag? at topmost
    rw [none] at topmost
    cases topmost
  simpa using tagged

end SampledStack

namespace CallTree

/-- Add sampled stacks to a tree, one after the other. -/
def ofStacks (samples : List SampledStack) : CallTree :=
  samples.foldl (fun tree stack => tree.addStack stack.space stack.frames stack.count) empty

theorem folds_ofStacks (samples : List SampledStack) :
    (ofStacks samples).Folds (samples.map SampledStack.tagged) := by
  have same : ofStacks samples = ofTagged (samples.map SampledStack.tagged) := by
    unfold ofTagged
    rw [List.foldl_map]
    rfl
  rw [same]
  exact folds_ofTagged _

/-- The paths of a tree are the beginnings of its stacks. -/
theorem hasPath_map_tagged {samples : List SampledStack} {path : List FrameKey} :
    HasPath (samples.map SampledStack.tagged) path ↔
      path = [] ∨ ∃ stack ∈ samples, path <+: stack.keys := by
  constructor
  · rintro (top | ⟨_, known, _, passes⟩)
    · exact Or.inl top
    · obtain ⟨stack, member, rfl⟩ := List.mem_map.mp known
      exact Or.inr ⟨stack, member, passes⟩
  · rintro (top | ⟨stack, member, passes⟩)
    · exact Or.inl top
    · by_cases top : path = []
      · exact Or.inl top
      · refine Or.inr ⟨stack.tagged, List.mem_map_of_mem member, fun untagged => ?_, passes⟩
        have empty := SampledStack.tagStack_eq_nil.mp untagged
        have nothing : stack.keys = [] := congrArg (List.map Frame.key) empty
        rw [nothing] at passes
        exact top (List.prefix_nil.mp passes)

theorem Folds.mem_paths
    {tree : CallTree}
    {paths : List (List FrameKey)}
    {samples : List TaggedStack}
    {path : List FrameKey}
    (folds : tree.Folds samples)
    (laid : tree.Laid paths) :
    path ∈ paths ↔ HasPath samples path := by
  constructor
  · intro member
    apply Classical.byContradiction
    intro missing
    exact laid.ticksAt?_eq_none.mp (folds.ticks_of_no_path path missing) member
  · intro there
    apply Classical.byContradiction
    intro absent
    have ticks := folds.ticks_of_path path there
    rw [laid.ticksAt?_eq_none.mpr absent] at ticks
    cases ticks

/-- Every path of a tree leads to one node. -/
theorem Folds.isSome_find?
    {tree : CallTree}
    {samples : List TaggedStack}
    (folds : tree.Folds samples)
    (path : List FrameKey) :
    (tree.find? path).isSome ↔ HasPath samples path := by
  obtain ⟨paths, laid⟩ := folds.laid
  rw [laid.isSome_find?, folds.mem_paths laid]

/-- Every node of a tree is at the end of exactly one path. -/
def HasUniquePaths (tree : CallTree) : Prop :=
  ∀ id, id < tree.size →
    ∃ path, tree.find? path = some id ∧ ∀ other, tree.find? other = some id → other = path

theorem Laid.hasUniquePaths
    {tree : CallTree}
    {paths : List (List FrameKey)}
    (laid : tree.Laid paths) :
    tree.HasUniquePaths := by
  intro id inside
  rw [← laid.size_eq] at inside
  have here : paths[id]? = some paths[id] := List.getElem?_eq_getElem inside
  refine ⟨paths[id], laid.find?_eq_some.mpr here, fun other found => ?_⟩
  have there := laid.find?_eq_some.mp found
  exact Option.some.inj (there.symm.trans here)

/-- Ticks which are gathered from fewer stacks are fewer. -/
theorem getD_creditsWhere_le
    {property other : List FrameKey → Prop}
    [DecidablePred property]
    [DecidablePred other]
    (weaker : ∀ keys, property keys → other keys)
    (samples : List TaggedStack)
    (tag : StackTag) :
    (TagCounts.gather (TaggedStack.creditsWhere property samples)).getD tag 0 ≤
      (TagCounts.gather (TaggedStack.creditsWhere other samples)).getD tag 0 :=
  TagCounts.getD_gather_le (TaggedStack.creditsWhere_sublist weaker samples) tag

/-- What stacks say does not depend on their order. -/
theorem expectedTicks_perm
    {left right : List TaggedStack}
    (same : left.Perm right)
    (path : List FrameKey) :
    expectedTicks left path = expectedTicks right path := by
  simp only [expectedTicks, TagCounts.gather_perm (TaggedStack.creditsWhere_perm same)]

theorem hasPath_perm
    {left right : List TaggedStack}
    (same : left.Perm right)
    (path : List FrameKey) :
    HasPath left path ↔ HasPath right path := by
  simp only [HasPath, same.mem_iff]

/-- Trees of the same stacks in other orders have the same ticks. -/
theorem Folds.ticksAt?_perm
    {tree other : CallTree}
    {left right : List TaggedStack}
    (folds : tree.Folds left)
    (otherFolds : other.Folds right)
    (same : left.Perm right)
    (path : List FrameKey) :
    tree.ticksAt? path = other.ticksAt? path := by
  by_cases there : HasPath left path
  · rw [folds.ticks_of_path path there, expectedTicks_perm same,
      otherFolds.ticks_of_path path ((hasPath_perm same path).mp there)]
  · rw [folds.ticks_of_no_path path there,
      otherFolds.ticks_of_no_path path fun has => there ((hasPath_perm same path).mpr has)]

/-- What is known about the ticks of a node is what the stacks say. -/
theorem Folds.ticks_eq
    {tree : CallTree}
    {samples : List TaggedStack}
    {path : List FrameKey}
    {ticks : NodeTicks}
    (folds : tree.Folds samples)
    (found : tree.ticksAt? path = some ticks) :
    ticks = expectedTicks samples path := by
  by_cases there : HasPath samples path
  · rw [folds.ticks_of_path path there] at found
    exact (Option.some.inj found).symm
  · rw [folds.ticks_of_no_path path there] at found
    cases found

/-- The nodes of a tree of sampled stacks are the beginnings of their paths, each of
them once.  The ticks of a node are saturating sums over the stacks which pass it,
which end there, and whose innermost interpreter level function is there; the root
is passed by all stacks which are not empty.  The order of the stacks is of no
consequence, no node has more self ticks than cumulative ones, and none has more
ticks than the one above. -/
theorem ticks_of_sampled_stacks (samples : List SampledStack) :
    (∀ path, path ≠ [] →
      (((ofStacks samples).find? path).isSome ↔ ∃ stack ∈ samples, path <+: stack.keys)) ∧
    (ofStacks samples).HasUniquePaths ∧
    (∀ path, path ≠ [] → ((ofStacks samples).find? path).isSome →
      ∃ ticks, (ofStacks samples).ticksAt? path = some ticks ∧
        ∀ tag,
          (ticks.cumulative.getD tag 0).toNat =
            min (UInt64.size - 1)
              (Ticks.exactSum (SampledStack.countsWhere (fun keys => path <+: keys) tag samples)) ∧
          (ticks.self.getD tag 0).toNat =
            min (UInt64.size - 1)
              (Ticks.exactSum (SampledStack.countsWhere (fun keys => keys = path) tag samples)) ∧
          (ticks.virtual.getD tag 0).toNat =
            min (UInt64.size - 1)
              (Ticks.exactSum (SampledStack.countsWhere (RunsIn path) tag samples))) ∧
    (∃ ticks, (ofStacks samples).ticksAt? [] = some ticks ∧
      ∀ tag, (ticks.cumulative.getD tag 0).toNat =
        min (UInt64.size - 1)
          (Ticks.exactSum (SampledStack.countsWhere (fun keys => keys ≠ []) tag samples))) ∧
    (∀ others, others.Perm samples → ∀ path,
      (ofStacks others).ticksAt? path = (ofStacks samples).ticksAt? path) ∧
    (∀ path tag ticks, (ofStacks samples).ticksAt? path = some ticks →
      ticks.self.getD tag 0 ≤ ticks.cumulative.getD tag 0) ∧
    ∀ path key above below, (ofStacks samples).ticksAt? path = some above →
      (ofStacks samples).ticksAt? (path ++ [key]) = some below →
        below.cumulative.total ≤ above.cumulative.total := by
  have folds := folds_ofStacks samples
  refine ⟨fun path some => ?_, ?_, fun path some found => ?_, ?_, fun others same path => ?_,
    fun path tag ticks found => ?_, fun path key above below foundAbove foundBelow => ?_⟩
  · rw [folds.isSome_find? path, hasPath_map_tagged, or_iff_right some]
  · obtain ⟨paths, laid⟩ := folds.laid
    exact laid.hasUniquePaths
  · refine ⟨_, folds.ticks_of_path path ((folds.isSome_find? path).mp found), ?_⟩
    intro tag
    simp only [expectedTicks, TagCounts.toNat_getD_gather, SampledStack.ticksOf_creditsWhere]
    refine ⟨trivial, ?_, trivial⟩
    simp only [some, ne_eq, not_false_eq_true, true_and]
  · refine ⟨_, folds.ticks_of_path [] (Or.inl rfl), ?_⟩
    intro tag
    rw [expectedTicks, TagCounts.toNat_getD_gather, SampledStack.ticksOf_creditsWhere,
      SampledStack.countsWhere_nil_prefix]
  · exact (folds_ofStacks others).ticksAt?_perm folds (same.map SampledStack.tagged) path
  · rw [folds.ticks_eq found]
    exact getD_creditsWhere_le (fun keys ends => ends.2 ▸ List.prefix_rfl) _ tag
  · rw [folds.ticks_eq foundAbove, folds.ticks_eq foundBelow]
    apply TagCounts.total_le_total
    intro tag
    exact getD_creditsWhere_le (fun keys passes => (List.prefix_append _ _).trans passes) _ tag

end CallTree
end RuntimeLog
