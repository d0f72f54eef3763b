import RuntimeLog.Proofs.CallTree.VirtualCounts

/-!
# Leaving out native frames twice

A tree without native frames has nothing which could be left out.  Its copy has the
same paths and the same cumulative ticks, but the self ticks of a copy are made of
virtual ticks, which the first copy does not have.  What is copied again therefore
has no self ticks at all.
-/

namespace RuntimeLog

/-- Ticks without the self ticks. -/
def NodeTicks.withoutSelf (ticks : NodeTicks) : NodeTicks :=
  { ticks with self := ∅ }

/-- A path of interpreter level functions stays where it is. -/
theorem movedTo?_eq_some_self
    {path : List FrameKey}
    (below : path ≠ [])
    (virtual : ∀ key ∈ path, key.isVirtual = true) :
    movedTo? path = some path := by
  have last : path.getLast?.any FrameKey.isVirtual = true := by
    rw [List.getLast?_eq_some_getLast below, Option.any_some]
    exact virtual _ (List.getLast_mem below)
  unfold movedTo?
  rw [if_pos last, List.filter_eq_self.mpr virtual]

namespace CallTree

open TaggedStack (creditsWhere)

variable {tree : CallTree} {paths visited : List (List FrameKey)} {path : List FrameKey}

/-- A tree without native frames, none of whose nodes has virtual ticks. -/
structure Pruned (tree : CallTree) (paths : List (List FrameKey)) : Prop where
  laid : tree.Laid paths
  isVirtual : ∀ path ∈ paths, ∀ key ∈ path, key.isVirtual = true
  ticks : ∀ path ticks, tree.ticksAt? path = some ticks → ticks.virtual = ∅

/-- If native frames are missing already, nothing but a path itself is moved to it. -/
theorem movedHere_of_virtual
    (distinct : visited.Nodup)
    (below : ∀ start ∈ visited, start ≠ [])
    (virtual : ∀ start ∈ visited, ∀ key ∈ start, key.isVirtual = true)
    (path : List FrameKey) :
    movedHere visited path = if path ∈ visited then [path] else [] := by
  have own : ∀ start ∈ visited, decide (movedTo? start = some path) = (start == path) := by
    intro start member
    rw [Bool.eq_iff_iff, decide_eq_true_iff, beq_iff_eq,
      movedTo?_eq_some_self (below start member) (virtual start member), Option.some.injEq]
  unfold movedHere
  rw [List.filter_congr own, List.filter_beq]
  by_cases member : path ∈ visited
  · rw [if_pos member, List.count_eq_one_of_mem distinct member]
    rfl
  · rw [if_neg member, List.count_eq_zero_of_not_mem member]
    rfl

theorem virtual_joinedTicks (tree : CallTree) (starts : List (List FrameKey)) :
    (tree.joinedTicks starts).virtual = ∅ := by
  induction starts using List.reverseRecOn with
  | nil => rfl
  | append_singleton starts start inductionHypothesis =>
      unfold joinedTicks
      rw [List.foldl_concat]
      exact inductionHypothesis

/-- A copy has interpreter level functions only, and no virtual ticks. -/
theorem Laid.exists_pruned (laid : tree.Laid paths) :
    ∃ copyPaths, tree.virtualOnly.Pruned copyPaths := by
  obtain ⟨visited, copyPaths, _, _, copied, ticks⟩ := laid.exists_virtualOnly
  refine ⟨copyPaths, copied, fun path member => ?_, fun path known found => ?_⟩
  · have there : (tree.joinedTicks? visited path).isSome := by
      rw [← ticks, ← copied.isSome_find?_iff, copied.isSome_find?]
      exact member
    unfold joinedTicks? at there
    split at there
    · rename_i top
      subst top
      exact nofun
    split at there
    · cases there
    · rename_i moved
      obtain ⟨start, here⟩ := List.exists_mem_of_ne_nil _ moved
      rw [← filter_of_movedTo? (mem_movedHere.mp here).2]
      exact fun key member => (List.mem_filter.mp member).2
  · rw [ticks, joinedTicks?] at found
    split at found
    · cases found
      rfl
    split at found
    · cases found
    · cases found
      exact virtual_joinedTicks tree _

/-- The copy of a tree without native frames has no self ticks, and the same other ones. -/
theorem Pruned.ticksAt?_virtualOnly (pruned : tree.Pruned paths) (path : List FrameKey) :
    tree.virtualOnly.ticksAt? path = (tree.ticksAt? path).map NodeTicks.withoutSelf := by
  obtain ⟨visited, copyPaths, distinct, complete, _, ticks⟩ := pruned.laid.exists_virtualOnly
  have once (starts : List FrameKey) := movedHere_of_virtual distinct
    (fun start member => ((complete start).mp member).1)
    (fun start member => pruned.isVirtual start ((complete start).mp member).2) starts
  have empty_of_missing (missing : path ∉ paths) : tree.ticksAt? path = none :=
    pruned.laid.ticksAt?_eq_none.mpr missing
  have known_of_mem (member : path ∈ paths) : ∃ known, tree.ticksAt? path = some known :=
    Option.ne_none_iff_exists'.mp fun nothing => pruned.laid.ticksAt?_eq_none.mp nothing member
  rw [ticks, joinedTicks?, once]
  by_cases top : path = []
  · have member : path ∈ paths := top ▸ List.mem_of_getElem? pruned.laid.root_eq
    obtain ⟨known, found⟩ := known_of_mem member
    rw [if_pos top, ← top, ticksAt, found, Option.getD_some, Option.map_some]
    simp [NodeTicks.withCumulative, NodeTicks.withoutSelf, NodeTicks.zero,
      pruned.ticks path known found]
  rw [if_neg top]
  by_cases member : path ∈ paths
  · obtain ⟨known, found⟩ := known_of_mem member
    have ticks_eq : tree.joinedTicks [path] =
        NodeTicks.zero.join (tree.ticksAt path).cumulative (tree.ticksAt path).virtual := rfl
    rw [if_pos ((complete path).mpr ⟨top, member⟩), if_neg (List.cons_ne_nil _ _), ticks_eq,
      ticksAt, found, Option.getD_some, Option.map_some]
    simp [NodeTicks.join, NodeTicks.withoutSelf, NodeTicks.zero, pruned.ticks path known found]
  · rw [if_neg fun visit => member ((complete path).mp visit).2, if_pos rfl,
      empty_of_missing member]
    rfl

variable {samples : List TaggedStack}

/-- What the copy of a tree of stacks holds at a path. -/
theorem ticksAt?_virtualOnly_ofTagged
    (has : HasPath (samples.map TaggedStack.virtualOnly) path) :
    (ofTagged samples).virtualOnly.ticksAt? path =
      some { expectedTicks (samples.map TaggedStack.virtualOnly) path with virtual := ∅ } := by
  obtain ⟨visited, copyPaths, distinct, complete, _, ticks⟩ :=
    (folds_ofTagged samples).exists_virtualOnly
  rw [ticks, copiedTicks?_eq_some complete distinct has]

theorem ticksAt?_virtualOnly_ofTagged_eq_none
    (missing : ¬ HasPath (samples.map TaggedStack.virtualOnly) path) :
    (ofTagged samples).virtualOnly.ticksAt? path = none := by
  obtain ⟨visited, copyPaths, _, complete, _, ticks⟩ :=
    (folds_ofTagged samples).exists_virtualOnly
  rw [ticks, copiedTicks?_eq_none complete missing]

/-- A node of a copy has no self ticks just if no stack has its innermost interpreter
level function there. -/
theorem withoutSelf_eq_self_iff (path : List FrameKey) :
    ((ofTagged samples).virtualOnly.ticksAt? path).map NodeTicks.withoutSelf =
        (ofTagged samples).virtualOnly.ticksAt? path ↔
      ∀ stack ∈ samples, stack.tags ≠ [] → stack.virtualOnly.keys = path → path = [] := by
  by_cases has : HasPath (samples.map TaggedStack.virtualOnly) path
  · rw [ticksAt?_virtualOnly_ofTagged has, Option.map_some, Option.some.injEq]
    have self_iff : ∅ = (expectedTicks (samples.map TaggedStack.virtualOnly) path).self ↔
        ∀ stack ∈ samples.map TaggedStack.virtualOnly, stack.tags ≠ [] →
          ¬ (path ≠ [] ∧ stack.keys = path) := by
      rw [eq_comm, expectedTicks, TagCounts.gather_eq_empty_iff,
        TaggedStack.creditsWhere_eq_nil_iff]
    have same_iff : NodeTicks.withoutSelf
          { expectedTicks (samples.map TaggedStack.virtualOnly) path with virtual := ∅ } =
        { expectedTicks (samples.map TaggedStack.virtualOnly) path with virtual := ∅ } ↔
        ∅ = (expectedTicks (samples.map TaggedStack.virtualOnly) path).self := by
      simp [NodeTicks.withoutSelf]
    rw [same_iff, self_iff, List.forall_mem_map]
    refine forall₂_congr fun stack _ => imp_congr_right fun _ => ?_
    rw [not_and', imp_congr_right fun _ => Decidable.not_not]
  · rw [ticksAt?_virtualOnly_ofTagged_eq_none has]
    refine iff_of_true rfl fun stack member tagged ends => ?_
    have passes : HasPath (samples.map TaggedStack.virtualOnly) path :=
      Or.inr ⟨stack.virtualOnly, List.mem_map_of_mem member, tagged, ends ▸ List.prefix_rfl⟩
    exact absurd passes has

/-- Leaving out native frames once more keeps all paths, each of them at one node, and
all cumulative ticks, but no self ticks.  Nothing changes just at the paths at which no
stack has its innermost interpreter level function, and at all paths from the second
time on. -/
theorem virtualOnly_virtualOnly_ofTagged (samples : List TaggedStack) :
    (∀ path,
      ((ofTagged samples).virtualOnly.virtualOnly.find? path).isSome ↔
        ((ofTagged samples).virtualOnly.find? path).isSome) ∧
    (∀ path,
      (ofTagged samples).virtualOnly.virtualOnly.ticksAt? path =
        ((ofTagged samples).virtualOnly.ticksAt? path).map NodeTicks.withoutSelf) ∧
    (∀ path,
      (ofTagged samples).virtualOnly.virtualOnly.ticksAt? path =
          (ofTagged samples).virtualOnly.ticksAt? path ↔
        ∀ stack ∈ samples, stack.tags ≠ [] → stack.virtualOnly.keys = path → path = []) ∧
    (∀ path,
      (ofTagged samples).virtualOnly.virtualOnly.virtualOnly.ticksAt? path =
        (ofTagged samples).virtualOnly.virtualOnly.ticksAt? path) ∧
    (ofTagged samples).virtualOnly.virtualOnly.HasUniquePaths := by
  obtain ⟨paths, laid⟩ := (folds_ofTagged samples).laid
  obtain ⟨oncePaths, once⟩ := laid.exists_pruned
  obtain ⟨twicePaths, twice⟩ := once.laid.exists_pruned
  refine ⟨fun path => ?_, once.ticksAt?_virtualOnly, fun path => ?_, fun path => ?_,
    twice.laid.hasUniquePaths⟩
  · rw [twice.laid.isSome_find?_iff, once.laid.isSome_find?_iff, once.ticksAt?_virtualOnly,
      Option.isSome_map]
  · rw [once.ticksAt?_virtualOnly, withoutSelf_eq_self_iff]
  · rw [twice.ticksAt?_virtualOnly, once.ticksAt?_virtualOnly, Option.map_map]
    rfl

/-- A stack of one interpreter level function. -/
def virtualStack : TaggedStack :=
  { frames := [.named "f" true], tags := [.c], count := 1 }

/-- The ticks of an interpreter level function are its self ticks in the first copy,
and are not in the second. -/
theorem self_ne_of_virtualStack :
    ∃ first second,
      (ofTagged [virtualStack]).virtualOnly.ticksAt? virtualStack.keys = some first ∧
      (ofTagged [virtualStack]).virtualOnly.virtualOnly.ticksAt? virtualStack.keys =
        some second ∧
      first.self ≠ second.self := by
  refine ⟨_, _, rfl, rfl, fun same => ?_⟩
  have counts := congrArg (fun self : TagCounts => self[StackTag.c]?) same
  exact absurd (counts.trans rfl) (Option.some_ne_none 1)

end CallTree
end RuntimeLog
