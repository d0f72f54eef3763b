import RuntimeLog.CallTree.Basic

/-!
# Call trees of interpreter level functions

Leaving out native frames moves every interpreter level function up to the
nearest one above it, where it joins the node of the same function.
-/

namespace RuntimeLog
namespace CallTree

/-- The state of the copying of a tree: the copy, and the nodes whose children
wait to be copied below some node of the copy. -/
structure Pruning where
  copy : CallTree
  waiting : List (Nat × Nat)

/-- Copy a child of a node which belongs below a node of the copy.  A native
frame is left out, so that its children belong below the same node. -/
def pruneChild (tree : CallTree) (target : Nat) (child : Nat) (state : Pruning) : Pruning :=
  match tree.node? child with
  | none => state
  | some node =>
      if node.frame.isVirtual then
        let (copy, id) := state.copy.childFor target node.frame
        let copy := copy.modifyNode id fun copied =>
          { copied with
            cumulativeTicks := copied.cumulativeTicks.merge node.cumulativeTicks
            selfTicks := copied.selfTicks.merge node.virtualTicks }
        { copy, waiting := (child, id) :: state.waiting }
      else { state with waiting := (child, target) :: state.waiting }

/-- Copy the children of all nodes which wait, last child first.  The number
bounds the nodes. -/
def pruneFrom (tree : CallTree) : Nat → Pruning → CallTree
  | 0, state => state.copy
  | bound + 1, state =>
      match state.waiting with
      | [] => state.copy
      | (source, target) :: waiting =>
          pruneFrom tree bound
            ((tree.children source).foldr (pruneChild tree target) { state with waiting })

/-- The tree with the interpreter level functions only.  The self ticks of such
a function are those for which it was the innermost one. -/
def virtualOnly (tree : CallTree) : CallTree :=
  let start := empty.modifyNode root fun node =>
    { node with
      cumulativeTicks := ((tree.node? root).map CallNode.cumulativeTicks).getD ∅ }
  tree.pruneFrom tree.size { copy := start, waiting := [(root, root)] }

end CallTree
end RuntimeLog
