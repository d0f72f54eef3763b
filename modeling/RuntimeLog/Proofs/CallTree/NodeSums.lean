import RuntimeLog.Proofs.CallTree.Ancestors
import RuntimeLog.Proofs.CallTree.Counts
import RuntimeLog.Proofs.CallTree.SharedTicks

/-!
# Sums over nodes

The self ticks of all nodes are the ticks of all stacks, since every stack ends at
one node.  The cumulative ticks of the topmost nodes of a function are those of the
stacks which have it, since every such stack passes exactly one of them.
-/

namespace RuntimeLog
namespace CallTree

open TaggedStack (creditsWhere)

/-- The ticks of all tags which passed a node. -/
def cumulativeTotal (tree : CallTree) (id : Nat) : UInt64 :=
  ((tree.node? id).map fun node => node.cumulativeTicks.total).getD 0

/-- The ticks which passed the topmost nodes of the functions with a name. -/
def topmostTicks (tree : CallTree) (name : String) : UInt64 :=
  Ticks.sum (((List.range tree.size).filter (tree.isTopmost name)).map tree.cumulativeTotal)

variable {tree : CallTree} {samples : List TaggedStack} {paths : List (List FrameKey)}

/-- The nodes of a tree have the ticks which the stacks say about their paths. -/
theorem Folds.map_ticks (folds : tree.Folds samples) (laid : tree.Laid paths) :
    tree.nodes.toList.map CallNode.ticks = paths.map (expectedTicks samples) := by
  apply List.ext_getElem?
  intro id
  rw [List.getElem?_map, List.getElem?_map, Array.getElem?_toList]
  cases here : paths[id]? with
  | none =>
      have beyond := List.getElem?_eq_none_iff.mp here
      rw [laid.size_eq] at beyond
      rw [Array.getElem?_eq_none beyond]
      rfl
  | some path =>
      have has := (folds.mem_paths laid).mp (List.mem_of_getElem? here)
      exact (laid.ticksAt?_eq here).symm.trans (folds.ticks_of_path path has)

/-- Every stack ends at one node. -/
theorem Folds.sum_selfTicks
    (folds : tree.Folds samples)
    (framed : ∀ stack ∈ samples, stack.tags ≠ [] → stack.keys ≠ [])
    (tag : StackTag) :
    Ticks.sum (tree.nodes.toList.map fun node => node.selfTicks.getD tag 0) =
      (TagCounts.gather (samples.filterMap TaggedStack.credit?)).getD tag 0 := by
  obtain ⟨paths, laid⟩ := folds.laid
  have perNode : (tree.nodes.toList.map fun node => node.selfTicks.getD tag 0) =
      paths.map fun path => Ticks.sum (TagCounts.ticksOf tag
        (creditsWhere (fun keys => path ≠ [] ∧ keys = path) samples)) := by
    have ticks := congrArg (List.map fun ticks : NodeTicks => ticks.self.getD tag 0)
      (folds.map_ticks laid)
    rw [List.map_map, List.map_map] at ticks
    refine ticks.trans (List.map_congr_left fun path _ => ?_)
    exact TagCounts.getD_gather _ tag
  have all : (paths.flatMap fun path =>
      creditsWhere (fun keys => path ≠ [] ∧ keys = path) samples).Perm
        (creditsWhere (fun _ => True) samples) := by
    apply TaggedStack.flatMap_creditsWhere_perm laid.nodup
    · rintro keys first _ second _ ⟨_, rfl⟩ ⟨_, rfl⟩
      rfl
    · intro stack member tagged
      refine iff_of_true ⟨stack.keys, ?_, framed stack member tagged, rfl⟩ trivial
      exact (folds.mem_paths laid).mpr (Or.inr ⟨stack, member, tagged, List.prefix_rfl⟩)
  have every : creditsWhere (fun _ => True) samples = samples.filterMap TaggedStack.credit? := by
    simp [creditsWhere]
  rw [perNode, ← Ticks.sum_flatMap, TagCounts.getD_gather, ← every]
  refine Ticks.sum_perm ?_
  unfold TagCounts.ticksOf Ticks.countsAt
  rw [← List.map_flatMap, ← List.filter_flatMap]
  exact (all.filter _).map _

/-- The ticks which passed a node are those of the stacks which pass its path. -/
theorem Folds.cumulativeTotal_eq
    (folds : tree.Folds samples)
    (laid : tree.Laid paths)
    {path : List FrameKey}
    {id : Nat}
    (here : paths[id]? = some path) :
    tree.cumulativeTotal id = (expectedTicks samples path).cumulative.total := by
  have has := (folds.mem_paths laid).mp (List.mem_of_getElem? here)
  have ticks := (laid.ticksAt?_eq here).symm.trans (folds.ticks_of_path path has)
  obtain ⟨node, known, same⟩ := Option.map_eq_some_iff.mp ticks
  unfold cumulativeTotal
  rw [known, ← same]
  rfl

/-- The topmost nodes of a function are those at the paths which first come to it. -/
theorem Folds.topmostTicks_eq_sum
    (folds : tree.Folds samples)
    (laid : tree.Laid paths)
    (name : String) :
    tree.topmostTicks name =
      Ticks.sum ((paths.filter (endsFirst name)).map fun path =>
        (expectedTicks samples path).cumulative.total) := by
  have place (id : Nat) (inside : id < tree.size) : paths[id]? = some (paths.getD id []) := by
    rw [← laid.size_eq] at inside
    rw [List.getD_eq_getElem?_getD, List.getElem?_eq_getElem inside, Option.getD_some]
  have enumerated : paths = (List.range tree.size).map fun id => paths.getD id [] := by
    apply List.ext_getElem (by rw [laid.size_eq, List.length_map, List.length_range])
    intro id inside _
    have here := place id (laid.size_eq ▸ inside)
    rw [List.getElem?_eq_getElem inside] at here
    rw [List.getElem_map, List.getElem_range]
    exact Option.some.inj here
  have topmost : (List.range tree.size).filter (tree.isTopmost name) =
      (List.range tree.size).filter (endsFirst name ∘ fun id => paths.getD id []) := by
    apply List.filter_congr
    intro id member
    exact laid.isTopmost_eq (place id (List.mem_range.mp member))
  unfold topmostTicks
  conv => rhs; rw [enumerated]
  rw [List.filter_map, List.map_map, topmost]
  refine congrArg Ticks.sum (List.map_congr_left fun id member => ?_)
  have here := place id (List.mem_range.mp (List.mem_filter.mp member).1)
  exact folds.cumulativeTotal_eq laid here

/-- Every stack with a function passes one of the topmost nodes of the function. -/
theorem Folds.topmostTicks_eq (folds : tree.Folds samples) (name : String) :
    tree.topmostTicks name =
      Ticks.sum
        ((creditsWhere (fun keys => ∃ key ∈ keys, key.name = name) samples).map Prod.snd) := by
  obtain ⟨paths, laid⟩ := folds.laid
  have all : ((paths.filter (endsFirst name)).flatMap fun path =>
      creditsWhere (fun keys => path <+: keys) samples).Perm
        (creditsWhere (fun keys => ∃ key ∈ keys, key.name = name) samples) := by
    apply TaggedStack.flatMap_creditsWhere_perm (laid.nodup.filter _)
    · intro keys first firstHere second secondHere firstPasses secondPasses
      exact eq_of_endsFirst firstPasses secondPasses (List.mem_filter.mp firstHere).2
        (List.mem_filter.mp secondHere).2
    · intro stack member tagged
      rw [← exists_endsFirst_iff]
      constructor
      · rintro ⟨start, here, passes⟩
        exact ⟨start, passes, (List.mem_filter.mp here).2⟩
      · rintro ⟨start, passes, ends⟩
        have has := (folds.mem_paths laid).mpr (Or.inr ⟨stack, member, tagged, passes⟩)
        exact ⟨start, List.mem_filter.mpr ⟨has, ends⟩, passes⟩
  rw [folds.topmostTicks_eq_sum laid]
  simp only [expectedTicks, TagCounts.total_gather]
  rw [← Ticks.sum_flatMap, ← List.map_flatMap]
  exact Ticks.sum_perm (all.map _)

end CallTree
end RuntimeLog
