import RuntimeLog.Journal
import RuntimeLog.Space.Frame
import RuntimeLog.Stack.Tagging

/-!
# Call trees

Sampled stacks are folded into a tree.  A stack adds its ticks to all nodes on
its path, under the tag of its innermost frame.  The innermost node also gets
them as self ticks, and the innermost interpreter level function on the path
gets them as virtual ticks.

Nodes are numbered in the order in which they were made, and refer to each other
by number.  Node zero is the root.
-/

namespace RuntimeLog

/-- A node of a call tree. -/
structure CallNode where
  frame : Frame
  /-- The number of the node above. -/
  parent : Option Nat
  /-- The numbers of the nodes below, in the order in which they were made. -/
  children : Journal Nat
  /-- The numbers of the nodes below, by their functions. -/
  childIndex : Std.ExtTreeMap FrameKey Nat compare
  /-- Ticks of stacks which end here. -/
  selfTicks : TagCounts
  /-- Ticks of stacks which pass here. -/
  cumulativeTicks : TagCounts
  /-- Ticks of stacks whose innermost interpreter level function is here. -/
  virtualTicks : TagCounts

/-- A node without ticks. -/
def CallNode.start (frame : Frame) (parent : Option Nat) : CallNode :=
  { frame
    parent
    children := .empty
    childIndex := ∅
    selfTicks := ∅
    cumulativeTicks := ∅
    virtualTicks := ∅ }

/-- A node with one more node below, which is one of a function. -/
def CallNode.adopt (node : CallNode) (key : FrameKey) (child : Nat) : CallNode :=
  { node with
    children := node.children.push child
    childIndex := node.childIndex.insert key child }

/-- Stacks folded into a tree. -/
structure CallTree where
  /-- The nodes by number. -/
  nodes : Array CallNode

namespace CallTree

/-- The number of the root. -/
def root : Nat := 0

/-- The name of the frame at the root. -/
def rootName : String := "<root>"

/-- The tree of no stack. -/
def empty : CallTree :=
  ⟨#[.start (.named rootName false) none]⟩

/-- The number of nodes, with the root. -/
def size (tree : CallTree) : Nat :=
  tree.nodes.size

/-- Whether there is nothing but the root. -/
def isEmpty (tree : CallTree) : Bool :=
  tree.nodes.size == 1

/-- The node with a number. -/
def node? (tree : CallTree) (id : Nat) : Option CallNode :=
  tree.nodes[id]?

/-- The numbers of the nodes below a node. -/
def children (tree : CallTree) (id : Nat) : List Nat :=
  ((tree.node? id).map fun node => node.children.toList).getD []

/-- The node of a function below a node. -/
def child? (tree : CallTree) (parent : Nat) (key : FrameKey) : Option Nat :=
  (tree.node? parent).bind fun node => node.childIndex[key]?

/-- The node with a name below a node.  A native function comes before an
interpreter level one. -/
def childNamed? (tree : CallTree) (parent : Nat) (name : String) : Option Nat :=
  (tree.child? parent { name, isVirtual := false }).or
    (tree.child? parent { name, isVirtual := true })

/-- Change a node. -/
def modifyNode (tree : CallTree) (id : Nat) (change : CallNode → CallNode) : CallTree :=
  ⟨tree.nodes.modify id change⟩

/-- The node for a frame below a node, which is made if it is not there. -/
def childFor (tree : CallTree) (parent : Nat) (frame : Frame) : CallTree × Nat :=
  match tree.child? parent frame.key with
  | some id => (tree, id)
  | none =>
      let id := tree.nodes.size
      let grown : CallTree := ⟨tree.nodes.push (.start frame (some parent))⟩
      (grown.modifyNode parent fun node => node.adopt frame.key id, id)

/-- The position of the innermost interpreter level function of a stack. -/
def deepestVirtual? (frames : List Frame) : Option Nat :=
  (frames.zipIdx.filter fun entry => entry.1.isVirtual).getLast?.map Prod.snd

/-- Add the ticks of a stack to a node on its path. -/
def creditNode
    (tag : StackTag)
    (count : UInt64)
    (isLast isDeepestVirtual : Bool)
    (node : CallNode) : CallNode :=
  { node with
    cumulativeTicks := node.cumulativeTicks.add tag count
    selfTicks := if isLast then node.selfTicks.add tag count else node.selfTicks
    virtualTicks :=
      if isDeepestVirtual then node.virtualTicks.add tag count else node.virtualTicks }

/-- Add a stack whose frames are tagged.  A stack without tags adds nothing. -/
def addTagged (tree : CallTree) (frames : List Frame) (tags : List StackTag) (count : UInt64) :
    CallTree :=
  match tags.getLast? with
  | none => tree
  | some tag =>
      let deepest := deepestVirtual? frames
      let depth := frames.length
      let start := tree.modifyNode root fun node =>
        { node with cumulativeTicks := node.cumulativeTicks.add tag count }
      (frames.zipIdx.foldl
        (fun (place : CallTree × Nat) entry =>
          let (tree, id) := place.1.childFor place.2 entry.1
          (tree.modifyNode id
            (creditNode tag count (entry.2 + 1 == depth) (deepest == some entry.2)), id))
        (start, root)).1

/-- Add a stack, root first, which was sampled `count` times. -/
def addStack (tree : CallTree) (space : AddressSpace) (frames : List Frame) (count : UInt64) :
    CallTree :=
  tree.addTagged frames (space.tagStack frames) count

/-! ## Walks -/

/-- Visit nodes which wait with their depths, and the nodes below them, behind
the visits in the reversed list.  The number bounds the visits. -/
def walkFrom (tree : CallTree) : Nat → List (Nat × Nat) → List (Nat × Nat) → List (Nat × Nat)
  | 0, _, visited => visited.reverse
  | _ + 1, [], visited => visited.reverse
  | bound + 1, (id, depth) :: waiting, visited =>
      walkFrom tree bound
        ((tree.children id).map (fun child => (child, depth + 1)) ++ waiting)
        ((id, depth) :: visited)

/-- All nodes with their depths: a node before those below it, and the nodes
below a node in the order in which they were made. -/
def walk (tree : CallTree) : List (Nat × Nat) :=
  tree.walkFrom tree.size [(root, 0)] []

end CallTree
end RuntimeLog
