import RuntimeLog.CallTree.Basic

/-!
# Layout of call trees

The nodes of a call tree are numbered, but what matters about a node is its path:
the functions from the root down to it.  A tree which was built by making
children has exactly one node for every path which it has, and the path of a node
never changes.
-/

namespace RuntimeLog

/-- The ticks of a node. -/
structure NodeTicks where
  cumulative : TagCounts
  self : TagCounts
  virtual : TagCounts

/-- No ticks. -/
def NodeTicks.zero : NodeTicks :=
  { cumulative := ∅, self := ∅, virtual := ∅ }

/-- The ticks of a node. -/
def CallNode.ticks (node : CallNode) : NodeTicks :=
  { cumulative := node.cumulativeTicks, self := node.selfTicks, virtual := node.virtualTicks }

namespace CallTree

/-- The node at the end of a path below some node. -/
def findFrom (tree : CallTree) : Nat → List FrameKey → Option Nat
  | id, [] => some id
  | id, key :: path => (tree.child? id key).bind fun child => tree.findFrom child path

/-- The node at the end of a path. -/
def find? (tree : CallTree) (path : List FrameKey) : Option Nat :=
  tree.findFrom root path

/-- The ticks at the end of a path. -/
def ticksAt? (tree : CallTree) (path : List FrameKey) : Option NodeTicks :=
  ((tree.find? path).bind tree.node?).map CallNode.ticks

/-- A tree whose nodes have some paths. -/
structure Laid (tree : CallTree) (paths : List (List FrameKey)) : Prop where
  size_eq : paths.length = tree.size
  root_eq : paths[root]? = some []
  nodup : paths.Nodup
  /-- With every path, its beginnings are there. -/
  closed : ∀ path key, path ++ [key] ∈ paths → path ∈ paths
  child_iff : ∀ parent child,
    child ∈ tree.children parent ↔
      ∃ path key, paths[parent]? = some path ∧ paths[child]? = some (path ++ [key])
  index_iff : ∀ parent key child,
    tree.child? parent key = some child ↔
      ∃ path, paths[parent]? = some path ∧ paths[child]? = some (path ++ [key])
  key_eq : ∀ id node path key,
    tree.node? id = some node → paths[id]? = some (path ++ [key]) → node.frame.key = key
  parentless : ∀ node, tree.node? root = some node → node.parent = none
  parent_eq : ∀ id node path key,
    tree.node? id = some node → paths[id]? = some (path ++ [key]) →
      ∃ parent, node.parent = some parent ∧ paths[parent]? = some path
  /-- Nodes are made below nodes which are there. -/
  parent_lt : ∀ parent child, child ∈ tree.children parent → parent < child
  ascending : ∀ parent, (tree.children parent).Pairwise (· < ·)

variable {tree : CallTree} {paths : List (List FrameKey)} {path : List FrameKey}
variable {id parent child : Nat} {key : FrameKey}

namespace Laid

theorem id_inj
    (laid : tree.Laid paths)
    {other : Nat}
    (here : paths[id]? = some path)
    (there : paths[other]? = some path) :
    id = other := by
  obtain ⟨inside, _⟩ := List.getElem?_eq_some_iff.mp here
  exact (List.getElem?_inj inside laid.nodup).mp (here.trans there.symm)

theorem exists_node (laid : tree.Laid paths) (here : paths[id]? = some path) :
    ∃ node, tree.node? id = some node := by
  obtain ⟨inside, _⟩ := List.getElem?_eq_some_iff.mp here
  rw [laid.size_eq] at inside
  exact ⟨tree.nodes[id], Array.getElem?_eq_getElem inside⟩

theorem closed_append
    (laid : tree.Laid paths)
    {rest : List FrameKey}
    (there : path ++ rest ∈ paths) :
    path ∈ paths := by
  induction rest generalizing path with
  | nil => rwa [List.append_nil] at there
  | cons key rest inductionHypothesis =>
      rw [List.append_cons] at there
      exact laid.closed path key (inductionHypothesis there)

/-- The child with a key is the node whose path goes on with that key. -/
theorem child?_eq_some
    (laid : tree.Laid paths)
    (here : paths[parent]? = some path) :
    tree.child? parent key = some child ↔ paths[child]? = some (path ++ [key]) := by
  rw [laid.index_iff]
  constructor
  · rintro ⟨other, there, place⟩
    cases here.symm.trans there
    exact place
  · exact fun place => ⟨path, here, place⟩

theorem children_nodup (laid : tree.Laid paths) (parent : Nat) :
    (tree.children parent).Nodup :=
  (laid.ascending parent).imp Nat.ne_of_lt

/-- To find a node is to know its path. -/
theorem findFrom_eq_some
    (laid : tree.Laid paths)
    {rest : List FrameKey}
    (here : paths[parent]? = some path) :
    tree.findFrom parent rest = some id ↔ paths[id]? = some (path ++ rest) := by
  induction rest generalizing parent path with
  | nil =>
      unfold findFrom
      rw [List.append_nil, Option.some.injEq]
      constructor
      · rintro rfl
        exact here
      · intro there
        exact laid.id_inj here there
  | cons key rest inductionHypothesis =>
      unfold findFrom
      rw [List.append_cons]
      cases below : tree.child? parent key with
      | some child =>
          exact inductionHypothesis ((laid.child?_eq_some here).mp below)
      | none =>
          refine ⟨nofun, fun there => ?_⟩
          have member := laid.closed_append (List.mem_of_getElem? there)
          obtain ⟨child, place⟩ := List.getElem?_of_mem member
          rw [(laid.child?_eq_some here).mpr place] at below
          cases below

theorem find?_eq_some (laid : tree.Laid paths) :
    tree.find? path = some id ↔ paths[id]? = some path :=
  laid.findFrom_eq_some laid.root_eq

theorem isSome_find? (laid : tree.Laid paths) : (tree.find? path).isSome ↔ path ∈ paths := by
  rw [Option.isSome_iff_exists, List.mem_iff_getElem?]
  exact exists_congr fun id => laid.find?_eq_some

theorem ticksAt?_eq (laid : tree.Laid paths) (here : paths[id]? = some path) :
    tree.ticksAt? path = (tree.node? id).map CallNode.ticks := by
  unfold ticksAt?
  rw [laid.find?_eq_some.mpr here]
  rfl

theorem ticksAt?_eq_none (laid : tree.Laid paths) :
    tree.ticksAt? path = none ↔ path ∉ paths := by
  constructor
  · intro nothing member
    obtain ⟨id, here⟩ := List.getElem?_of_mem member
    obtain ⟨node, found⟩ := laid.exists_node here
    rw [laid.ticksAt?_eq here, found] at nothing
    cases nothing
  · intro missing
    cases found : tree.find? path with
    | none => rw [ticksAt?, found]; rfl
    | some id => exact absurd (List.mem_of_getElem? (laid.find?_eq_some.mp found)) missing

theorem isSome_find?_iff (laid : tree.Laid paths) :
    (tree.find? path).isSome ↔ (tree.ticksAt? path).isSome := by
  rw [laid.isSome_find?, Option.isSome_iff_ne_none, ne_eq, laid.ticksAt?_eq_none,
    Decidable.not_not]

end Laid

/-! ## Making and changing nodes -/

theorem laid_empty : empty.Laid [[]] where
  size_eq := rfl
  root_eq := rfl
  nodup := by simp
  closed path key there := by simp at there
  child_iff parent child := by
    have childless : empty.children parent = [] := by
      cases parent <;> rfl
    rw [childless]
    constructor
    · intro member
      cases member
    · rintro ⟨path, key, _, place⟩
      have member := List.mem_of_getElem? place
      simp at member
  key_eq id node path key _ place := by
    have member := List.mem_of_getElem? place
    simp at member
  parentless node found := by
    cases found
    rfl
  parent_eq id node path key _ place := by
    have member := List.mem_of_getElem? place
    simp at member
  index_iff parent key child := by
    have unknown : empty.child? parent key = none := by
      cases parent <;> rfl
    rw [unknown]
    refine iff_of_false nofun ?_
    rintro ⟨path, _, place⟩
    have member := List.mem_of_getElem? place
    simp at member
  parent_lt parent child member := by
    cases parent <;> cases member
  ascending parent := by
    cases parent <;> exact .nil

/-- A change of a node which leaves its frame and its neighbours alone. -/
structure Silent (change : CallNode → CallNode) : Prop where
  frame_eq : ∀ node, (change node).frame = node.frame
  parent_eq : ∀ node, (change node).parent = node.parent
  children_eq : ∀ node, (change node).children = node.children
  childIndex_eq : ∀ node, (change node).childIndex = node.childIndex

variable {change : CallNode → CallNode} {act : NodeTicks → NodeTicks}

theorem node?_modifyNode (tree : CallTree) (id other : Nat) (change : CallNode → CallNode) :
    (tree.modifyNode id change).node? other =
      if id = other then (tree.node? other).map change else tree.node? other := by
  rw [node?, modifyNode, Array.getElem?_modify, node?]

theorem Silent.children_modifyNode (silent : Silent change) (tree : CallTree) (id parent : Nat) :
    (tree.modifyNode id change).children parent = tree.children parent := by
  rw [children, node?_modifyNode, children]
  by_cases own : id = parent
  · rw [if_pos own]
    cases tree.node? parent <;> simp [silent.children_eq]
  · rw [if_neg own]

theorem Silent.child?_modifyNode
    (silent : Silent change)
    (tree : CallTree)
    (id parent : Nat)
    (key : FrameKey) :
    (tree.modifyNode id change).child? parent key = tree.child? parent key := by
  rw [child?, node?_modifyNode, child?]
  by_cases own : id = parent
  · rw [if_pos own]
    cases tree.node? parent <;> simp [silent.childIndex_eq]
  · rw [if_neg own]

/-- A node after a silent change is one with the same frame below the same node. -/
theorem Silent.exists_node?
    (silent : Silent change)
    {other : Nat}
    {node : CallNode}
    (found : (tree.modifyNode id change).node? other = some node) :
    ∃ before, tree.node? other = some before ∧ node.frame = before.frame ∧
      node.parent = before.parent := by
  rw [node?_modifyNode] at found
  by_cases own : id = other
  · rw [if_pos own, Option.map_eq_some_iff] at found
    obtain ⟨before, known, rfl⟩ := found
    exact ⟨before, known, silent.frame_eq before, silent.parent_eq before⟩
  · rw [if_neg own] at found
    exact ⟨node, found, rfl, rfl⟩

theorem Laid.modifyNode
    (laid : tree.Laid paths)
    (silent : Silent change)
    (id : Nat) :
    (tree.modifyNode id change).Laid paths where
  size_eq := by
    rw [laid.size_eq, size, size, CallTree.modifyNode, Array.size_modify]
  root_eq := laid.root_eq
  nodup := laid.nodup
  closed := laid.closed
  child_iff parent child := by
    rw [silent.children_modifyNode]
    exact laid.child_iff parent child
  index_iff parent key child := by
    rw [silent.child?_modifyNode]
    exact laid.index_iff parent key child
  key_eq other node path key found place := by
    obtain ⟨before, known, frame, _⟩ := silent.exists_node? found
    rw [frame]
    exact laid.key_eq other before path key known place
  parentless node found := by
    obtain ⟨before, known, _, parent⟩ := silent.exists_node? found
    rw [parent]
    exact laid.parentless before known
  parent_eq other node path key found place := by
    obtain ⟨before, known, _, parent⟩ := silent.exists_node? found
    rw [parent]
    exact laid.parent_eq other before path key known place
  parent_lt parent child member := by
    rw [silent.children_modifyNode] at member
    exact laid.parent_lt parent child member
  ascending parent := by
    rw [silent.children_modifyNode]
    exact laid.ascending parent

/-- Changing a node changes the ticks at its path only. -/
theorem Laid.ticksAt?_modifyNode
    (laid : tree.Laid paths)
    (silent : Silent change)
    (acts : ∀ node, (change node).ticks = act node.ticks)
    (here : paths[id]? = some path)
    (other : List FrameKey) :
    (tree.modifyNode id change).ticksAt? other =
      if other = path then (tree.ticksAt? path).map act else tree.ticksAt? other := by
  have later := laid.modifyNode silent id
  by_cases member : other ∈ paths
  · obtain ⟨place, there⟩ := List.getElem?_of_mem member
    rw [later.ticksAt?_eq there, node?_modifyNode]
    by_cases own : id = place
    · subst own
      cases here.symm.trans there
      rw [if_pos rfl, if_pos rfl, laid.ticksAt?_eq here]
      cases tree.node? id <;> simp [acts]
    · have foreign : other ≠ path := by
        rintro rfl
        exact own (laid.id_inj here there)
      rw [if_neg own, if_neg foreign, laid.ticksAt?_eq there]
  · have foreign : other ≠ path := by
      rintro rfl
      exact member (List.mem_of_getElem? here)
    rw [if_neg foreign, later.ticksAt?_eq_none.mpr member, laid.ticksAt?_eq_none.mpr member]

/-- A tree with a new node for a frame below a node. -/
def extend (tree : CallTree) (parent : Nat) (frame : Frame) : CallTree :=
  modifyNode ⟨tree.nodes.push (.start frame (some parent))⟩ parent fun node =>
    node.adopt frame.key tree.size

theorem childFor_of_some
    {frame : Frame}
    (found : tree.child? parent frame.key = some id) :
    tree.childFor parent frame = (tree, id) := by
  unfold childFor
  rw [found]

theorem childFor_of_none
    {frame : Frame}
    (missing : tree.child? parent frame.key = none) :
    tree.childFor parent frame = (tree.extend parent frame, tree.size) := by
  unfold childFor
  rw [missing]
  rfl

theorem node?_extend
    {frame : Frame}
    (inside : parent < tree.size)
    (other : Nat) :
    (tree.extend parent frame).node? other =
      if other = tree.size then some (.start frame (some parent))
      else if parent = other then
        (tree.node? other).map fun node => node.adopt frame.key tree.size
      else tree.node? other := by
  unfold extend
  rw [node?_modifyNode]
  have pushed : node? ⟨tree.nodes.push (.start frame (some parent))⟩ other =
      if other = tree.size then some (.start frame (some parent)) else tree.node? other :=
    Array.getElem?_push
  rw [pushed]
  by_cases new : other = tree.size
  · have foreign : parent ≠ other := by omega
    rw [if_neg foreign, if_pos new, if_pos new]
  · rw [if_neg new, if_neg new]

/-- An earlier node after a node was made is one with the same frame below the same
node. -/
theorem exists_node?_of_extend
    {frame : Frame}
    {other : Nat}
    {node : CallNode}
    (inside : parent < tree.size)
    (earlier : other ≠ tree.size)
    (found : (tree.extend parent frame).node? other = some node) :
    ∃ before, tree.node? other = some before ∧ node.frame = before.frame ∧
      node.parent = before.parent := by
  rw [node?_extend inside, if_neg earlier] at found
  by_cases own : parent = other
  · rw [if_pos own, Option.map_eq_some_iff] at found
    obtain ⟨before, known, rfl⟩ := found
    exact ⟨before, known, rfl, rfl⟩
  · rw [if_neg own] at found
    exact ⟨node, found, rfl, rfl⟩

theorem children_extend
    {frame : Frame}
    (inside : parent < tree.size)
    (other : Nat) :
    (tree.extend parent frame).children other =
      if parent = other then tree.children other ++ [tree.size] else tree.children other := by
  rw [children, node?_extend inside, children]
  by_cases new : other = tree.size
  · have foreign : parent ≠ other := by omega
    have missing : tree.node? other = none := Array.getElem?_eq_none (Nat.le_of_eq new.symm)
    rw [if_pos new, if_neg foreign, missing]
    rfl
  · rw [if_neg new]
    by_cases own : parent = other
    · subst own
      obtain ⟨node, found⟩ : ∃ node, tree.node? parent = some node :=
        ⟨tree.nodes[parent], Array.getElem?_eq_getElem inside⟩
      rw [if_pos rfl, if_pos rfl, found]
      simp [CallNode.adopt]
    · rw [if_neg own, if_neg own]

theorem child?_extend
    {frame : Frame}
    (inside : parent < tree.size)
    (other : Nat)
    (key : FrameKey) :
    (tree.extend parent frame).child? other key =
      if parent = other ∧ frame.key = key then some tree.size else tree.child? other key := by
  rw [child?, node?_extend inside, child?]
  by_cases new : other = tree.size
  · have foreign : ¬ (parent = other ∧ frame.key = key) := fun own => by omega
    have missing : tree.node? other = none := Array.getElem?_eq_none (Nat.le_of_eq new.symm)
    rw [if_pos new, if_neg foreign, missing]
    exact Std.ExtTreeMap.getElem?_empty
  · rw [if_neg new]
    by_cases own : parent = other
    · subst own
      obtain ⟨node, found⟩ : ∃ node, tree.node? parent = some node :=
        ⟨tree.nodes[parent], Array.getElem?_eq_getElem inside⟩
      simp [found, CallNode.adopt, Std.ExtTreeMap.getElem?_insert]
    · rw [if_neg own, if_neg fun both => own both.1]

theorem Laid.lt_size (laid : tree.Laid paths) (here : paths[id]? = some path) :
    id < tree.size := by
  rw [← laid.size_eq]
  exact (List.getElem?_eq_some_iff.mp here).1

theorem Laid.lt_of_child (laid : tree.Laid paths) (member : child ∈ tree.children parent) :
    child < tree.size := by
  obtain ⟨path, key, _, place⟩ := (laid.child_iff parent child).mp member
  exact laid.lt_size place

/-- The paths of a tree with a new node: the old ones, and one more. -/
theorem getElem?_concat {new : List FrameKey} (paths : List (List FrameKey)) (id : Nat) :
    (paths ++ [new])[id]? = if id = paths.length then some new else paths[id]? := by
  by_cases last : id = paths.length
  · rw [if_pos last, last, List.getElem?_concat_length]
  · rw [if_neg last]
    by_cases inside : id < paths.length
    · rw [List.getElem?_append_left inside]
    · rw [List.getElem?_eq_none (by rw [List.length_append, List.length_singleton]; omega),
        List.getElem?_eq_none (by omega)]

theorem Laid.getElem?_concat_of_lt
    (laid : tree.Laid paths)
    {new : List FrameKey}
    (inside : id < tree.size) :
    (paths ++ [new])[id]? = paths[id]? := by
  rw [getElem?_concat, if_neg (by rw [laid.size_eq]; omega)]

/-- The new node is the only one whose place below another one is new. -/
theorem Laid.below_concat_iff
    (laid : tree.Laid paths)
    {start : List FrameKey}
    {last : FrameKey}
    (here : paths[parent]? = some path)
    (missing : path ++ [last] ∉ paths)
    (above below : Nat) :
    ((paths ++ [path ++ [last]])[above]? = some start ∧
        (paths ++ [path ++ [last]])[below]? = some (start ++ [key])) ↔
      (paths[above]? = some start ∧ paths[below]? = some (start ++ [key])) ∨
        (above = parent ∧ below = tree.size ∧ start = path ∧ key = last) := by
  have inside := laid.lt_size here
  constructor
  · rintro ⟨there, place⟩
    rw [getElem?_concat, laid.size_eq] at there place
    have earlier : above ≠ tree.size := by
      -- a node below the new one would have come with the beginnings of its path
      intro new
      rw [if_pos new, Option.some.injEq] at there
      by_cases alsoNew : below = tree.size
      · rw [if_pos alsoNew, Option.some.injEq] at place
        have lengths := congrArg List.length (there.trans (List.append_inj' place rfl).1.symm)
        simp at lengths
      · rw [if_neg alsoNew] at place
        exact missing (there ▸ laid.closed _ key (List.mem_of_getElem? place))
    rw [if_neg earlier] at there
    by_cases new : below = tree.size
    · rw [if_pos new, Option.some.injEq] at place
      obtain ⟨rfl, same⟩ := List.append_inj' place rfl
      exact Or.inr ⟨laid.id_inj there here, new, rfl, (List.singleton_inj.mp same).symm⟩
    · rw [if_neg new] at place
      exact Or.inl ⟨there, place⟩
  · rintro (⟨there, place⟩ | ⟨rfl, rfl, rfl, rfl⟩)
    · rw [laid.getElem?_concat_of_lt (laid.lt_size there),
        laid.getElem?_concat_of_lt (laid.lt_size place)]
      exact ⟨there, place⟩
    · rw [laid.getElem?_concat_of_lt inside, getElem?_concat, if_pos laid.size_eq.symm]
      exact ⟨here, rfl⟩

/-- A new node is the last one below its parent. -/
theorem Laid.mem_children_extend
    (laid : tree.Laid paths)
    {frame : Frame}
    (here : paths[parent]? = some path)
    (above below : Nat) :
    below ∈ (tree.extend parent frame).children above ↔
      below ∈ tree.children above ∨ (above = parent ∧ below = tree.size) := by
  rw [children_extend (laid.lt_size here)]
  by_cases own : parent = above
  · simp [own]
  · simp [own, Ne.symm own]

/-- A tree stays laid out when a missing node is made. -/
theorem Laid.extend
    (laid : tree.Laid paths)
    {frame : Frame}
    (here : paths[parent]? = some path)
    (missing : path ++ [frame.key] ∉ paths) :
    (tree.extend parent frame).Laid (paths ++ [path ++ [frame.key]]) := by
  have inside := laid.lt_size here
  constructor
  case size_eq =>
    rw [List.length_append, laid.size_eq, List.length_singleton, size, size, CallTree.extend,
      CallTree.modifyNode, Array.size_modify, Array.size_push]
  case root_eq => rw [laid.getElem?_concat_of_lt (laid.lt_size laid.root_eq), laid.root_eq]
  case nodup =>
    rw [List.nodup_append]
    refine ⟨laid.nodup, by simp, fun earlier member last one => ?_⟩
    rintro rfl
    rw [List.mem_singleton] at one
    exact missing (one ▸ member)
  case closed =>
    intro beginning key there
    rw [List.mem_append, List.mem_singleton] at there ⊢
    rcases there with known | new
    · exact Or.inl (laid.closed beginning key known)
    · rw [(List.append_inj' new rfl).1]
      exact Or.inl (List.mem_of_getElem? here)
  case child_iff =>
    intro above below
    simp only [laid.mem_children_extend here, laid.child_iff, laid.below_concat_iff here missing,
      exists_or]
    simp
  case index_iff =>
    intro above key below
    simp only [laid.below_concat_iff here missing, exists_or, ← laid.index_iff]
    rw [child?_extend inside]
    by_cases own : parent = above ∧ frame.key = key
    · obtain ⟨rfl, rfl⟩ := own
      have unknown : tree.child? parent frame.key ≠ some below := fun known =>
        missing (List.mem_of_getElem? ((laid.child?_eq_some here).mp known))
      simp [unknown, eq_comm]
    · rw [if_neg own]
      refine (or_iff_left ?_).symm
      rintro ⟨_, rfl, _, _, rfl⟩
      exact own ⟨rfl, rfl⟩
  case key_eq =>
    intro other node beginning key found place
    rw [getElem?_concat, laid.size_eq] at place
    by_cases new : other = tree.size
    · rw [node?_extend inside, if_pos new, Option.some.injEq] at found
      rw [if_pos new, Option.some.injEq] at place
      rw [← found]
      exact List.singleton_inj.mp (List.append_inj' place rfl).2
    · obtain ⟨before, known, same, _⟩ := exists_node?_of_extend inside new found
      rw [if_neg new] at place
      rw [same]
      exact laid.key_eq other before beginning key known place
  case parentless =>
    intro node found
    have earlier := Nat.ne_of_lt (laid.lt_size laid.root_eq)
    obtain ⟨before, known, _, same⟩ := exists_node?_of_extend inside earlier found
    rw [same]
    exact laid.parentless before known
  case parent_eq =>
    intro other node beginning key found place
    rw [getElem?_concat, laid.size_eq] at place
    by_cases new : other = tree.size
    · rw [node?_extend inside, if_pos new, Option.some.injEq] at found
      rw [if_pos new, Option.some.injEq] at place
      refine ⟨parent, by rw [← found]; rfl, ?_⟩
      rw [laid.getElem?_concat_of_lt inside, here, (List.append_inj' place rfl).1]
    · obtain ⟨before, known, _, same⟩ := exists_node?_of_extend inside new found
      rw [if_neg new] at place
      obtain ⟨above, isParent, there⟩ := laid.parent_eq other before beginning key known place
      refine ⟨above, same.trans isParent, ?_⟩
      rw [laid.getElem?_concat_of_lt (laid.lt_size there), there]
  case parent_lt =>
    intro above below member
    rcases (laid.mem_children_extend here above below).mp member with known | ⟨rfl, rfl⟩
    · exact laid.parent_lt above below known
    · exact inside
  case ascending =>
    intro above
    rw [children_extend inside]
    by_cases own : parent = above
    · rw [if_pos own, List.pairwise_append]
      refine ⟨laid.ascending above, List.pairwise_singleton _ _, fun earlier member last one => ?_⟩
      rw [List.mem_singleton.mp one]
      exact laid.lt_of_child member
    · rw [if_neg own]
      exact laid.ascending above

/-- A new node has no ticks, and the other ones keep theirs. -/
theorem Laid.ticksAt?_extend
    (laid : tree.Laid paths)
    {frame : Frame}
    (here : paths[parent]? = some path)
    (missing : path ++ [frame.key] ∉ paths)
    (other : List FrameKey) :
    (tree.extend parent frame).ticksAt? other =
      if other = path ++ [frame.key] then some .zero else tree.ticksAt? other := by
  have inside := laid.lt_size here
  have later := laid.extend here missing
  by_cases new : other = path ++ [frame.key]
  · have place : (paths ++ [path ++ [frame.key]])[tree.size]? = some other := by
      rw [getElem?_concat, if_pos laid.size_eq.symm, new]
    rw [later.ticksAt?_eq place, node?_extend inside, if_pos rfl, if_pos new]
    rfl
  · rw [if_neg new]
    by_cases member : other ∈ paths
    · obtain ⟨id, there⟩ := List.getElem?_of_mem member
      have known := laid.lt_size there
      have place : (paths ++ [path ++ [frame.key]])[id]? = some other := by
        rw [getElem?_concat, if_neg (by rw [laid.size_eq]; omega), there]
      rw [later.ticksAt?_eq place, laid.ticksAt?_eq there, node?_extend inside,
        if_neg (by omega)]
      by_cases own : parent = id
      · rw [if_pos own]
        cases tree.node? id <;> rfl
      · rw [if_neg own]
    · have absent : other ∉ paths ++ [path ++ [frame.key]] := by
        rw [List.mem_append, List.mem_singleton]
        exact fun there => there.elim member new
      rw [later.ticksAt?_eq_none.mpr absent, laid.ticksAt?_eq_none.mpr member]

/-- The tree and the node after the node for a frame below a node was changed.  It
is made first if it is not there. -/
def touch (tree : CallTree) (parent : Nat) (frame : Frame) (change : CallNode → CallNode) :
    CallTree × Nat :=
  ((tree.childFor parent frame).1.modifyNode (tree.childFor parent frame).2 change,
    (tree.childFor parent frame).2)

/-- To touch a node below a path changes the ticks at the path of that node only,
or gives it some if it had none. -/
theorem Laid.exists_touch
    (laid : tree.Laid paths)
    (silent : Silent change)
    (acts : ∀ node, (change node).ticks = act node.ticks)
    (here : paths[parent]? = some path)
    (frame : Frame) :
    ∃ laterPaths,
      (tree.touch parent frame change).1.Laid laterPaths ∧
      paths <+: laterPaths ∧
      laterPaths[(tree.touch parent frame change).2]? = some (path ++ [frame.key]) ∧
      ∀ other,
        (tree.touch parent frame change).1.ticksAt? other =
          if other = path ++ [frame.key] then some (act ((tree.ticksAt? other).getD .zero))
          else tree.ticksAt? other := by
  cases found : tree.child? parent frame.key with
  | some child =>
      have place := (laid.child?_eq_some here).mp found
      unfold touch
      rw [childFor_of_some found]
      refine ⟨paths, laid.modifyNode silent child, List.prefix_rfl, place, ?_⟩
      intro other
      rw [laid.ticksAt?_modifyNode silent acts place]
      by_cases own : other = path ++ [frame.key]
      · obtain ⟨node, known⟩ := laid.exists_node place
        rw [if_pos own, if_pos own, own, laid.ticksAt?_eq place, known]
        rfl
      · rw [if_neg own, if_neg own]
  | none =>
      have missing : path ++ [frame.key] ∉ paths := by
        intro member
        obtain ⟨child, place⟩ := List.getElem?_of_mem member
        rw [(laid.child?_eq_some here).mpr place] at found
        cases found
      have extended := laid.extend here missing
      have place : (paths ++ [path ++ [frame.key]])[tree.size]? =
          some (path ++ [frame.key]) := by
        rw [getElem?_concat, if_pos laid.size_eq.symm]
      unfold touch
      rw [childFor_of_none found]
      refine ⟨_, extended.modifyNode silent tree.size, List.prefix_append _ _, place,
        fun other => ?_⟩
      rw [extended.ticksAt?_modifyNode silent acts place, laid.ticksAt?_extend here missing,
        laid.ticksAt?_extend here missing, if_pos rfl]
      by_cases own : other = path ++ [frame.key]
      · rw [if_pos own, if_pos own, own, laid.ticksAt?_eq_none.mpr missing]
        rfl
      · rw [if_neg own, if_neg own, if_neg own]

end CallTree
end RuntimeLog
