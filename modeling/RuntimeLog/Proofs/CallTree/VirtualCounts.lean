import RuntimeLog.Proofs.CallTree.Pruning
import RuntimeLog.Proofs.CallTree.SharedTicks

/-!
# Counts without native frames

It is the same whether native frames are left out of a tree or of the stacks from
which the tree was made.
-/

namespace RuntimeLog
namespace CallTree

open TaggedStack (creditsWhere)

variable {samples : List TaggedStack} {stack : TaggedStack}
variable {visited : List (List FrameKey)} {path start : List FrameKey}

theorem mem_movedHere :
    start ∈ movedHere visited path ↔ start ∈ visited ∧ movedTo? start = some path := by
  unfold movedHere
  rw [List.mem_filter, decide_eq_true_iff]

theorem unique_movedHere
    {keys first second : List FrameKey}
    (firstMember : first ∈ movedHere visited path)
    (secondMember : second ∈ movedHere visited path)
    (firstPasses : first <+: keys)
    (secondPasses : second <+: keys) :
    first = second :=
  eq_of_movedTo? firstPasses secondPasses (mem_movedHere.mp firstMember).2
    (mem_movedHere.mp secondMember).2

section Complete

variable (complete : ∀ start, start ∈ visited ↔ start ≠ [] ∧ HasPath samples start)

include complete

/-- Where a stack passes was visited. -/
theorem mem_movedHere_of_passes
    (member : stack ∈ samples)
    (tagged : stack.tags ≠ [])
    (passes : start <+: stack.keys)
    (moved : movedTo? start = some path) :
    start ∈ movedHere visited path := by
  refine mem_movedHere.mpr ⟨(complete start).mpr ⟨?_, ?_⟩, moved⟩
  · rintro rfl
    cases moved
  · exact Or.inr ⟨stack, member, tagged, passes⟩

/-- A stack passes a path without its native frames if it passes one which is moved
there. -/
theorem exists_passes_iff
    (below : path ≠ [])
    (member : stack ∈ samples)
    (tagged : stack.tags ≠ []) :
    (∃ start ∈ movedHere visited path, start <+: stack.keys) ↔
      path <+: stack.virtualOnly.keys := by
  rw [TaggedStack.keys_virtualOnly]
  constructor
  · rintro ⟨start, here, passes⟩
    rw [← filter_of_movedTo? (mem_movedHere.mp here).2]
    exact passes.filter _
  · intro passes
    obtain ⟨start, begins, moved⟩ := exists_movedTo? below passes
    exact ⟨start, mem_movedHere_of_passes complete member tagged begins moved, begins⟩

/-- A stack ends at a path without its native frames if its innermost interpreter
level function is at the end of one which is moved there. -/
theorem exists_runsIn_iff
    (below : path ≠ [])
    (member : stack ∈ samples)
    (tagged : stack.tags ≠ []) :
    (∃ start ∈ movedHere visited path, RunsIn start stack.keys) ↔
      path ≠ [] ∧ stack.virtualOnly.keys = path := by
  rw [and_iff_right below, TaggedStack.keys_virtualOnly]
  constructor
  · rintro ⟨start, here, runs⟩
    exact ((runsIn_iff_of_movedTo? (mem_movedHere.mp here).2).mp runs).2
  · intro ends
    have passes : path <+: stack.keys.filter FrameKey.isVirtual :=
      ⟨[], (List.append_nil path).trans ends.symm⟩
    obtain ⟨start, begins, moved⟩ := exists_movedTo? below passes
    refine ⟨start, mem_movedHere_of_passes complete member tagged begins moved, ?_⟩
    exact (runsIn_iff_of_movedTo? moved).mpr ⟨begins, ends⟩

/-- The copy has the paths of the stacks without their native frames. -/
theorem movedHere_ne_nil (below : path ≠ []) :
    movedHere visited path ≠ [] ↔ HasPath (samples.map TaggedStack.virtualOnly) path := by
  constructor
  · intro moved
    obtain ⟨start, here⟩ := List.exists_mem_of_ne_nil _ moved
    obtain ⟨some, has⟩ := (complete start).mp (mem_movedHere.mp here).1
    obtain ⟨stack, member, tagged, passes⟩ := has.resolve_left some
    refine Or.inr ⟨stack.virtualOnly, List.mem_map_of_mem member, tagged, ?_⟩
    exact (exists_passes_iff complete below member tagged).mp ⟨start, here, passes⟩
  · intro has
    obtain ⟨_, known, tagged, passes⟩ := has.resolve_left below
    obtain ⟨stack, member, rfl⟩ := List.mem_map.mp known
    obtain ⟨start, here, _⟩ := (exists_passes_iff complete below member tagged).mpr passes
    exact List.ne_nil_of_mem here

/-- The ticks of the copy are what the stacks say without their native frames. -/
theorem copiedTicks?_eq_some
    (distinct : visited.Nodup)
    (has : HasPath (samples.map TaggedStack.virtualOnly) path) :
    copiedTicks? samples visited path =
      some { expectedTicks (samples.map TaggedStack.virtualOnly) path with virtual := ∅ } := by
  by_cases top : path = []
  · have self : creditsWhere (fun keys => path ≠ [] ∧ keys = path)
        (samples.map TaggedStack.virtualOnly) = [] :=
      TaggedStack.creditsWhere_eq_nil fun _ _ _ ends => ends.1 top
    rw [copiedTicks?, if_pos top, expectedTicks, self, top,
      TaggedStack.creditsWhere_nil_prefix_map]
    rfl
  · have cumulative :
        ((movedHere visited path).flatMap fun start =>
          creditsWhere (fun keys => start <+: keys) samples).Perm
          (creditsWhere (fun keys => path <+: keys) (samples.map TaggedStack.virtualOnly)) := by
      rw [TaggedStack.creditsWhere_map_virtualOnly]
      apply TaggedStack.flatMap_creditsWhere_perm (distinct.filter _)
      · intro keys first here second there passes alsoPasses
        exact unique_movedHere here there passes alsoPasses
      · intro stack member tagged
        rw [← TaggedStack.keys_virtualOnly]
        exact exists_passes_iff complete top member tagged
    have self :
        ((movedHere visited path).flatMap fun start => creditsWhere (RunsIn start) samples).Perm
          (creditsWhere (fun keys => path ≠ [] ∧ keys = path)
            (samples.map TaggedStack.virtualOnly)) := by
      rw [TaggedStack.creditsWhere_map_virtualOnly]
      apply TaggedStack.flatMap_creditsWhere_perm (distinct.filter _)
      · intro keys first here second there runs alsoRuns
        exact unique_movedHere here there runs.passes alsoRuns.passes
      · intro stack member tagged
        rw [← TaggedStack.keys_virtualOnly]
        exact exists_runsIn_iff complete top member tagged
    rw [copiedTicks?, if_neg top, if_neg ((movedHere_ne_nil complete top).mpr has),
      TagCounts.gather_perm cumulative, TagCounts.gather_perm self]
    rfl

theorem copiedTicks?_eq_none (missing : ¬ HasPath (samples.map TaggedStack.virtualOnly) path) :
    copiedTicks? samples visited path = none := by
  have below : path ≠ [] := fun top => missing (Or.inl top)
  unfold copiedTicks?
  rw [if_neg below, if_pos]
  apply Classical.byContradiction
  intro moved
  exact missing ((movedHere_ne_nil complete below).mp moved)

end Complete

/-- To leave native frames out of a tree is to leave them out of its stacks.  Both
trees have the same paths, each of them at one node, and at every path, that of the
root included, the same cumulative ticks and the same self ticks. -/
theorem virtualOnly_ofTagged (samples : List TaggedStack) :
    (∀ path,
      ((ofTagged samples).virtualOnly.find? path).isSome ↔
        ((ofTagged (samples.map TaggedStack.virtualOnly)).find? path).isSome) ∧
    (∀ path, ((ofTagged samples).virtualOnly.find? path).isSome →
      ∃ pruned folded,
        (ofTagged samples).virtualOnly.ticksAt? path = some pruned ∧
        (ofTagged (samples.map TaggedStack.virtualOnly)).ticksAt? path = some folded ∧
        pruned.cumulative = folded.cumulative ∧
        pruned.self = folded.self) ∧
    (ofTagged samples).virtualOnly.HasUniquePaths ∧
    (ofTagged (samples.map TaggedStack.virtualOnly)).HasUniquePaths := by
  have folds := folds_ofTagged (samples.map TaggedStack.virtualOnly)
  obtain ⟨foldedPaths, folded⟩ := folds.laid
  obtain ⟨visited, copyPaths, distinct, complete, copied, ticks⟩ :=
    (folds_ofTagged samples).exists_virtualOnly
  have has_iff (path : List FrameKey) :
      ((ofTagged samples).virtualOnly.find? path).isSome ↔
        HasPath (samples.map TaggedStack.virtualOnly) path := by
    rw [copied.isSome_find?_iff, ticks]
    by_cases has : HasPath (samples.map TaggedStack.virtualOnly) path
    · rw [copiedTicks?_eq_some complete distinct has]
      exact iff_of_true rfl has
    · rw [copiedTicks?_eq_none complete has]
      exact iff_of_false nofun has
  refine ⟨fun path => ?_, fun path found => ?_, copied.hasUniquePaths, folded.hasUniquePaths⟩
  · rw [has_iff, folds.isSome_find?]
  · have has := (has_iff path).mp found
    have pruned := (ticks path).trans (copiedTicks?_eq_some complete distinct has)
    exact ⟨_, _, pruned, folds.ticks_of_path path has, rfl, rfl⟩

end CallTree
end RuntimeLog
