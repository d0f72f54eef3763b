import Mathlib.Data.List.Nodup
import RuntimeLog.Proofs.CallTree.Ancestors
import RuntimeLog.Proofs.CallTree.Folding
import RuntimeLog.Proofs.CallTree.Pruning

/-!
# Walks through call trees

However a call tree was made, its nodes refer to each other as those of a tree do: what a
node says about those below it in its list, what it says in its index, and what they say
about it are the same.  So a walk ends without a bound on its visits, and comes to every
node once.
-/

namespace RuntimeLog
namespace CallTree

/-! ## Ways of making trees -/

/-- What makes another call tree of one. -/
inductive Change where
  | addStack (space : AddressSpace) (frames : List Frame) (count : UInt64)
  /-- Add a stack with whatever tags. -/
  | addTagged (stack : TaggedStack)
  | virtualOnly

/-- Change a tree. -/
def Change.apply (tree : CallTree) : Change → CallTree
  | addStack space frames count => tree.addStack space frames count
  | addTagged stack => tree.addTagged stack.frames stack.tags stack.count
  | virtualOnly => tree.virtualOnly

/-- The tree which is made of the empty one by changes, one after the other. -/
def ofChanges (changes : List Change) : CallTree :=
  changes.foldl Change.apply empty

/-- A tree whose nodes agree about which of them are below which. -/
structure WellFormed (tree : CallTree) : Prop where
  root : ∃ node, tree.node? root = some node ∧ node.parent = none
  /-- All nodes but the root are below an earlier one, which lists them once. -/
  parent : ∀ id node, tree.node? id = some node → id ≠ CallTree.root →
    ∃ parent above, node.parent = some parent ∧ parent < id ∧
      tree.node? parent = some above ∧ above.children.toList.count id = 1
  /-- The nodes in the list of a node are below this node. -/
  children : ∀ id node, tree.node? id = some node → ∀ child ∈ node.children.toList,
    ∃ below, tree.node? child = some below ∧ below.parent = some id
  /-- The index of a node has the nodes in its list under their functions, and no others. -/
  index : ∀ id node, tree.node? id = some node → ∀ key child,
    node.childIndex[key]? = some child ↔
      child ∈ node.children.toList ∧ (tree.node? child).map (fun below => below.frame.key) = some key
  /-- No two nodes below a node are of the same function. -/
  distinct : ∀ id node, tree.node? id = some node →
    (node.children.toList.map fun child =>
      (tree.node? child).map fun below => below.frame.key).Nodup
  /-- The list of a node has the nodes below it in the order in which they were made. -/
  ascending : ∀ id node, tree.node? id = some node → node.children.toList.Pairwise (· < ·)

/-! ## Visits -/

/-- The visits to which nodes which wait with their depths lead.  There is no bound on the
visits, but what waits has to run out. -/
inductive Walks (tree : CallTree) : List (Nat × Nat) → List (Nat × Nat) → Prop
  | done : Walks tree [] []
  | visit
      {id depth : Nat}
      {waiting visits : List (Nat × Nat)}
      (next : Walks tree ((tree.children id).map (fun child => (child, depth + 1)) ++ waiting)
        visits) :
      Walks tree ((id, depth) :: waiting) ((id, depth) :: visits)

/-- The copy to which the copying of a tree leads from some state.  There is no bound on the
nodes which are copied, but what waits has to run out. -/
inductive CopiesTo (tree : CallTree) : Pruning → CallTree → Prop
  | done {copy : CallTree} : CopiesTo tree { copy, waiting := [] } copy
  | expand
      {copy last : CallTree}
      {source target : Nat}
      {waiting : List (Nat × Nat)}
      (next : CopiesTo tree
        ((tree.children source).foldr (tree.pruneChild target) { copy, waiting }) last) :
      CopiesTo tree { copy, waiting := (source, target) :: waiting } last

/-- A tree through which a walk comes to every node once, in order. -/
structure WalksInOrder (tree : CallTree) : Prop where
  ends : tree.Walks [(root, 0)] tree.walk
  once : (tree.walk.map Prod.fst).Perm (List.range tree.size)
  /-- A node comes behind all nodes above it. -/
  downward : ∀ id, ∀ above ∈ tree.ancestors id, [above, id].Sublist (tree.walk.map Prod.fst)
  /-- The nodes below a node come in the order in which they were made. -/
  siblings : ∀ id, (tree.children id).Sublist (tree.walk.map Prod.fst)
  /-- A node and all nodes below it come one right behind the other. -/
  together : ∀ id < tree.size, ∃ block, block <:+: tree.walk.map Prod.fst ∧
    ∀ other, other ∈ block ↔ other = id ∨ id ∈ tree.ancestors other
  depth : ∀ id depth, (id, depth) ∈ tree.walk → depth = (tree.ancestors id).length

/-- The visits of some nodes at a depth and of all nodes below them: a node comes before
those below it, and these before the next one. -/
inductive Preorder (tree : CallTree) : Nat → List Nat → List (Nat × Nat) → Prop
  | nil (depth : Nat) : Preorder tree depth [] []
  | cons
      {depth id : Nat}
      {others : List Nat}
      {below rest : List (Nat × Nat)}
      (down : Preorder tree (depth + 1) (tree.children id) below)
      (along : Preorder tree depth others rest) :
      Preorder tree depth (id :: others) ((id, depth) :: (below ++ rest))

variable {tree : CallTree} {paths : List (List FrameKey)} {path : List FrameKey}
variable {id other depth : Nat} {ids : List Nat} {visits waiting rest : List (Nat × Nat)}

/-! ## Trees which are laid out -/

theorem Laid.mem_toList_iff
    {node : CallNode}
    (found : tree.node? id = some node)
    {child : Nat} :
    child ∈ node.children.toList ↔ child ∈ tree.children id := by
  rw [children, found]
  rfl

/-- A node of a tree which is laid out has a path. -/
theorem Laid.exists_path (laid : tree.Laid paths) (inside : id < tree.size) :
    ∃ path, paths[id]? = some path :=
  ⟨_, List.getElem?_eq_getElem (laid.size_eq.symm ▸ inside)⟩

theorem lt_size_of_node? {node : CallNode} (found : tree.node? id = some node) :
    id < tree.size :=
  (Array.getElem?_eq_some_iff.mp found).1

/-- The function of a node is the last one of its path. -/
theorem Laid.map_key_eq_some_iff
    (laid : tree.Laid paths)
    {child : Nat}
    (above : paths[id]? = some path)
    (member : child ∈ tree.children id)
    {key : FrameKey} :
    (tree.node? child).map (fun below => below.frame.key) = some key ↔
      paths[child]? = some (path ++ [key]) := by
  obtain ⟨start, last, there, place⟩ := (laid.child_iff id child).mp member
  cases above.symm.trans there
  obtain ⟨below, known⟩ := laid.exists_node place
  rw [known, Option.map_some, laid.key_eq child below path last known place, place,
    Option.some.injEq, Option.some.injEq, List.append_cancel_left_eq, List.singleton_inj]

/-- In a tree which is laid out the nodes agree about which of them are below which. -/
theorem Laid.wellFormed (laid : tree.Laid paths) : tree.WellFormed where
  root := by
    obtain ⟨node, found⟩ := laid.exists_node laid.root_eq
    exact ⟨node, found, laid.parentless node found⟩
  parent id node found notRoot := by
    obtain ⟨path, here⟩ := laid.exists_path (lt_size_of_node? found)
    rcases List.eq_nil_or_concat path with rfl | ⟨start, key, rfl⟩
    · exact absurd (laid.id_inj here laid.root_eq) notRoot
    · rw [List.concat_eq_append] at here
      obtain ⟨parent, above, there⟩ := laid.parent_eq id node start key found here
      have member := (laid.child_iff parent id).mpr ⟨start, key, there, here⟩
      obtain ⟨aboveNode, known⟩ := laid.exists_node there
      refine ⟨parent, aboveNode, above, laid.parent_lt parent id member, known, ?_⟩
      have once := laid.children_nodup parent
      rw [children, known] at once member
      exact List.count_eq_one_of_mem once member
  children id node found child member := by
    rw [mem_toList_iff found] at member
    obtain ⟨path, key, above, place⟩ := (laid.child_iff id child).mp member
    obtain ⟨below, known⟩ := laid.exists_node place
    obtain ⟨parent, isParent, there⟩ := laid.parent_eq child below path key known place
    exact ⟨below, known, isParent.trans (congrArg some (laid.id_inj there above))⟩
  index id node found key child := by
    obtain ⟨path, here⟩ := laid.exists_path (lt_size_of_node? found)
    have index : node.childIndex[key]? = some child ↔ tree.child? id key = some child := by
      rw [child?, found]
      rfl
    rw [index, laid.child?_eq_some here, mem_toList_iff found]
    constructor
    · intro place
      have member := (laid.child_iff id child).mpr ⟨path, key, here, place⟩
      exact ⟨member, (laid.map_key_eq_some_iff here member).mpr place⟩
    · rintro ⟨member, named⟩
      exact (laid.map_key_eq_some_iff here member).mp named
  distinct id node found := by
    obtain ⟨path, here⟩ := laid.exists_path (lt_size_of_node? found)
    have once := laid.children_nodup id
    rw [children, found] at once
    refine List.Nodup.map_on ?_ once
    intro first one second two same
    rw [mem_toList_iff found] at one two
    obtain ⟨_, key, there, place⟩ := (laid.child_iff id first).mp one
    cases here.symm.trans there
    have named := (laid.map_key_eq_some_iff here one).mpr place
    exact laid.id_inj place ((laid.map_key_eq_some_iff here two).mp (same.symm.trans named))
  ascending id node found := by
    have ascending := laid.ascending id
    rw [children, found] at ascending
    exact ascending

/-- However a tree was made, it is laid out. -/
theorem exists_laid_ofChanges (changes : List Change) : ∃ paths, (ofChanges changes).Laid paths := by
  have added (tree : CallTree) (laid : ∃ paths, tree.Laid paths) (stack : TaggedStack) :
      ∃ paths, (tree.addTagged stack.frames stack.tags stack.count).Laid paths := by
    obtain ⟨paths, laid⟩ := laid
    cases tagged : stack.tags.getLast? with
    | none =>
        rw [addTagged, tagged]
        exact ⟨paths, laid⟩
    | some tag =>
        obtain ⟨later, laidThen, _⟩ := exists_addTagged tagged laid stack.frames stack.count
        exact ⟨later, laidThen⟩
  have run (tree : CallTree) (laid : ∃ paths, tree.Laid paths) :
      ∃ paths, (changes.foldl Change.apply tree).Laid paths := by
    induction changes generalizing tree with
    | nil => exact laid
    | cons change changes inductionHypothesis =>
        apply inductionHypothesis
        cases change with
        | addStack space frames count =>
            exact added tree laid { frames, tags := space.tagStack frames, count }
        | addTagged stack => exact added tree laid stack
        | virtualOnly =>
            obtain ⟨paths, laid⟩ := laid
            obtain ⟨_, copyPaths, _, _, copied, _⟩ := laid.exists_virtualOnly
            exact ⟨copyPaths, copied⟩
  exact run empty ⟨[[]], laid_empty⟩

/-! ## Copying -/

/-- The bound on the nodes which are copied is no bound. -/
theorem Prunes.copiesTo
    {expanded : List Nat}
    {state : Pruning}
    {bound : Nat}
    (prunes : Prunes tree paths expanded state)
    (laid : tree.Laid paths)
    (enough : bound + expanded.length = tree.size) :
    tree.CopiesTo state (tree.pruneFrom bound state) := by
  induction bound generalizing expanded state with
  | zero =>
      obtain ⟨copy, waiting⟩ := state
      have room : expanded.length + waiting.length ≤ tree.size := prunes.length_le laid
      obtain rfl : waiting = [] := by
        rw [← List.length_eq_zero_iff]
        omega
      exact .done
  | succ bound inductionHypothesis =>
      obtain ⟨copy, waiting⟩ := state
      unfold pruneFrom
      cases waiting with
      | nil => exact .done
      | cons entry waiting =>
          obtain ⟨source, target⟩ := entry
          refine .expand (inductionHypothesis (prunes.expand laid rfl) ?_)
          rw [List.length_append, List.length_singleton]
          omega

theorem Laid.copiesTo_virtualOnly (laid : tree.Laid paths) :
    tree.CopiesTo { copy := empty.modifyNode root (takeRoot tree), waiting := [(root, root)] }
      tree.virtualOnly :=
  laid.prunes_start.copiesTo laid (Nat.add_zero _)

/-! ## Visits in order -/

theorem children_of_size_le (outside : tree.size ≤ id) : tree.children id = [] := by
  rw [children, node?, Array.getElem?_eq_none outside]
  rfl

/-- There is an order in which some nodes and all nodes below them are visited. -/
theorem Laid.exists_preorder (laid : tree.Laid paths) (depth : Nat) (ids : List Nat) :
    ∃ visits, tree.Preorder depth ids visits := by
  -- nodes are below earlier ones, so that there is room for fewer levels below them
  have within (room : Nat) (depth : Nat) (ids : List Nat)
      (inside : ∀ id ∈ ids, tree.size ≤ id + room) : ∃ visits, tree.Preorder depth ids visits := by
    induction room generalizing depth ids with
    | zero =>
        induction ids with
        | nil => exact ⟨[], .nil depth⟩
        | cons id ids others =>
            obtain ⟨here, further⟩ := List.forall_mem_cons.mp inside
            obtain ⟨rest, along⟩ := others further
            have down : tree.Preorder (depth + 1) (tree.children id) [] := by
              rw [← Nat.add_zero id, children_of_size_le here]
              exact .nil _
            exact ⟨_, .cons down along⟩
    | succ room inductionHypothesis =>
        induction ids with
        | nil => exact ⟨[], .nil depth⟩
        | cons id ids others =>
            obtain ⟨here, further⟩ := List.forall_mem_cons.mp inside
            obtain ⟨rest, along⟩ := others further
            obtain ⟨below, down⟩ := inductionHypothesis (depth + 1) (tree.children id)
              fun child member => by
                have later := laid.parent_lt id child member
                omega
            exact ⟨_, .cons down along⟩
  exact within tree.size depth ids fun id _ => Nat.le_add_left _ _

/-- Nodes which wait are visited in order. -/
theorem Preorder.walks
    (preorder : tree.Preorder depth ids visits)
    (behind : tree.Walks waiting rest) :
    tree.Walks (ids.map (fun id => (id, depth)) ++ waiting) (visits ++ rest) := by
  induction preorder generalizing waiting rest with
  | nil depth => exact behind
  | cons down along belowWalks restWalks =>
      rw [List.cons_append, List.append_assoc]
      exact .visit (belowWalks (restWalks behind))

/-- A bound which leaves room for all visits is no bound. -/
theorem Walks.walkFrom_eq
    {bound : Nat}
    (walks : tree.Walks waiting visits)
    (enough : visits.length ≤ bound)
    (visited : List (Nat × Nat)) :
    tree.walkFrom bound waiting visited = visited.reverse ++ visits := by
  induction walks generalizing bound visited with
  | done => cases bound <;> simp [walkFrom]
  | visit next inductionHypothesis =>
      rw [List.length_cons] at enough
      obtain ⟨bound, rfl⟩ : ∃ fewer, bound = fewer + 1 := ⟨bound - 1, by omega⟩
      rw [walkFrom, inductionHypothesis (by omega), List.reverse_cons, List.append_assoc]
      rfl

/-! ## Which nodes are visited -/

/-- Whether a node is another one or below it, as their paths say. -/
def Under (paths : List (List FrameKey)) (id other : Nat) : Prop :=
  ∃ start path, paths[id]? = some start ∧ paths[other]? = some path ∧ start <+: path

/-- Whether nodes are in a tree at a depth. -/
def AtDepth (paths : List (List FrameKey)) (depth : Nat) (ids : List Nat) : Prop :=
  ∀ id ∈ ids, ∃ path, paths[id]? = some path ∧ path.length = depth

theorem ancestors_of_size_le (outside : tree.size ≤ id) : tree.ancestors id = [] := by
  have parentless : (tree.node? id).bind CallNode.parent = none := by
    rw [node?, Array.getElem?_eq_none outside]
    rfl
  rw [ancestors]
  cases tree.size with
  | zero => rfl
  | succ bound => rw [ancestorsFrom, parentless]

/-- The paths tell the same nodes above a node as the nodes themselves. -/
theorem Laid.under_iff_mem_ancestors (laid : tree.Laid paths) (inside : id < tree.size) :
    Under paths id other ↔ other = id ∨ id ∈ tree.ancestors other := by
  by_cases known : other < tree.size
  · obtain ⟨path, here⟩ := laid.exists_path known
    rw [laid.mem_ancestors_iff here]
    constructor
    · rintro ⟨start, whole, there, place, begins⟩
      cases here.symm.trans place
      by_cases same : start = path
      · exact Or.inl (laid.id_inj here (same ▸ there))
      · exact Or.inr ⟨start, there, begins, same⟩
    · rintro (rfl | ⟨start, there, begins, _⟩)
      · exact ⟨path, path, here, here, List.prefix_rfl⟩
      · exact ⟨start, path, there, here, begins⟩
  · rw [ancestors_of_size_le (Nat.le_of_not_lt known)]
    refine iff_of_false ?_ ?_
    · rintro ⟨_, path, _, place, _⟩
      exact known (laid.lt_size place)
    · rintro (rfl | member)
      · exact known inside
      · cases member

/-- What is not a node itself is below one of those right below it. -/
theorem Laid.under_iff (laid : tree.Laid paths) (here : paths[id]? = some path) :
    Under paths id other ↔ other = id ∨ ∃ child ∈ tree.children id, Under paths child other := by
  constructor
  · rintro ⟨start, whole, there, place, rest, rfl⟩
    cases here.symm.trans there
    cases rest with
    | nil =>
        rw [List.append_nil] at place
        exact Or.inl (laid.id_inj place here)
    | cons key rest =>
        rw [List.append_cons] at place
        obtain ⟨child, below⟩ :=
          List.getElem?_of_mem (laid.closed_append (List.mem_of_getElem? place))
        exact Or.inr ⟨child, (laid.child_iff id child).mpr ⟨path, key, here, below⟩,
          _, _, below, place, List.prefix_append _ _⟩
  · rintro (rfl | ⟨child, member, start, whole, there, place, begins⟩)
    · exact ⟨path, path, here, here, List.prefix_rfl⟩
    · obtain ⟨above, key, known, below⟩ := (laid.child_iff id child).mp member
      cases here.symm.trans known
      cases there.symm.trans below
      exact ⟨path, whole, here, place, (List.prefix_append path [key]).trans begins⟩

theorem Laid.atDepth_children
    (laid : tree.Laid paths)
    (here : paths[id]? = some path) :
    AtDepth paths (path.length + 1) (tree.children id) := by
  intro child member
  obtain ⟨above, key, known, below⟩ := (laid.child_iff id child).mp member
  cases here.symm.trans known
  exact ⟨_, below, by simp⟩

/-- No node is below two nodes of the same depth. -/
theorem Under.eq_of_length
    {one two : List FrameKey}
    {first second : Nat}
    (laid : tree.Laid paths)
    (here : paths[first]? = some one)
    (there : paths[second]? = some two)
    (same : one.length = two.length)
    (underFirst : Under paths first other)
    (underSecond : Under paths second other) :
    first = second := by
  obtain ⟨start, path, known, place, begins⟩ := underFirst
  obtain ⟨alsoStart, alsoPath, alsoKnown, alsoPlace, alsoBegins⟩ := underSecond
  cases here.symm.trans known
  cases there.symm.trans alsoKnown
  cases place.symm.trans alsoPlace
  have equal := List.prefix_of_prefix_length_le begins alsoBegins (Nat.le_of_eq same)
  exact laid.id_inj here (equal.eq_of_length same ▸ there)

namespace Preorder

/-- Some nodes and all nodes below them are visited, and no others. -/
theorem mem_iff
    (preorder : tree.Preorder depth ids visits)
    (laid : tree.Laid paths)
    (level : AtDepth paths depth ids) :
    other ∈ visits.map Prod.fst ↔ ∃ id ∈ ids, Under paths id other := by
  induction preorder with
  | nil depth => simp
  | cons down along belowVisits restVisits =>
      obtain ⟨⟨path, here, rfl⟩, others⟩ := List.forall_mem_cons.mp level
      rw [List.map_cons, List.map_append, List.mem_cons, List.mem_append, List.exists_mem_cons_iff,
        belowVisits (laid.atDepth_children here), restVisits others, laid.under_iff here, or_assoc]

/-- No node is visited twice. -/
theorem nodup
    (preorder : tree.Preorder depth ids visits)
    (laid : tree.Laid paths)
    (level : AtDepth paths depth ids)
    (distinct : ids.Nodup) :
    (visits.map Prod.fst).Nodup := by
  induction preorder with
  | nil depth => exact List.nodup_nil
  | @cons depth id ids below rest down along belowOnce restOnce =>
      obtain ⟨⟨path, here, rfl⟩, others⟩ := List.forall_mem_cons.mp level
      obtain ⟨notAmong, distinct⟩ := List.nodup_cons.mp distinct
      have levelBelow := laid.atDepth_children here
      -- what is visited further on is below another node of the same depth
      have elsewhere {other : Nat} (under : Under paths id other) :
          other ∉ rest.map Prod.fst := by
        rw [along.mem_iff laid others]
        rintro ⟨next, member, alsoUnder⟩
        obtain ⟨nextPath, there, same⟩ := others next member
        exact notAmong (under.eq_of_length laid here there same.symm alsoUnder ▸ member)
      rw [List.map_cons, List.map_append, List.nodup_cons, List.mem_append, List.nodup_append']
      refine ⟨?_, belowOnce levelBelow (laid.children_nodup id), restOnce others distinct, ?_⟩
      · rintro (below | behind)
        · obtain ⟨child, member, start, whole, place, alsoHere, begins⟩ :=
            (down.mem_iff laid levelBelow).mp below
          obtain ⟨longer, there, length⟩ := levelBelow child member
          cases place.symm.trans there
          cases here.symm.trans alsoHere
          have short := begins.length_le
          omega
        · exact elsewhere ((laid.under_iff here).mpr (Or.inl rfl)) behind
      · intro other inside
        exact elsewhere ((laid.under_iff here).mpr
          (Or.inr ((down.mem_iff laid levelBelow).mp inside)))

/-- The depth of a visit is the length of the path of the node. -/
theorem atDepth
    (preorder : tree.Preorder depth ids visits)
    (laid : tree.Laid paths)
    (level : AtDepth paths depth ids)
    {visit : Nat × Nat}
    (member : visit ∈ visits) :
    ∃ path, paths[visit.1]? = some path ∧ path.length = visit.2 := by
  induction preorder with
  | nil depth => cases member
  | cons down along belowVisits restVisits =>
      obtain ⟨⟨path, here, rfl⟩, others⟩ := List.forall_mem_cons.mp level
      rcases List.mem_cons.mp member with rfl | member
      · exact ⟨path, here, rfl⟩
      · rcases List.mem_append.mp member with below | behind
        · exact belowVisits (laid.atDepth_children here) below
        · exact restVisits others behind

/-- The visits of a node and of those below it are made one right behind the other. -/
theorem exists_infix
    (preorder : tree.Preorder depth ids visits)
    {level : Nat}
    (member : (id, level) ∈ visits) :
    ∃ below, tree.Preorder (level + 1) (tree.children id) below ∧
      (id, level) :: below <:+: visits := by
  induction preorder with
  | nil depth => cases member
  | @cons depth first others below rest down along belowVisits restVisits =>
      rcases List.mem_cons.mp member with same | member
      · cases same
        exact ⟨below, down, (List.prefix_append ((id, level) :: below) rest).isInfix⟩
      · rcases List.mem_append.mp member with deeper | behind
        · obtain ⟨inner, further, inside⟩ := belowVisits deeper
          refine ⟨inner, further, inside.trans ⟨[(first, depth)], rest, ?_⟩⟩
          simp
        · obtain ⟨inner, further, inside⟩ := restVisits behind
          refine ⟨inner, further, inside.trans ⟨(first, depth) :: below, [], ?_⟩⟩
          simp

/-- Nodes are visited one after the other. -/
theorem sublist (preorder : tree.Preorder depth ids visits) : ids.Sublist (visits.map Prod.fst) := by
  induction preorder with
  | nil depth => exact List.Sublist.slnil
  | cons down along belowVisits restVisits =>
      rw [List.map_cons, List.map_append]
      exact (restVisits.trans (List.sublist_append_right _ _)).cons_cons _

end Preorder

/-! ## Walks -/

theorem Laid.length_ancestorsFrom
    (laid : tree.Laid paths)
    (here : paths[id]? = some path)
    {bound : Nat}
    (enough : path.length ≤ bound) :
    (tree.ancestorsFrom bound id).length = path.length := by
  induction path using List.reverseRecOn generalizing id bound with
  | nil =>
      cases laid.id_inj here laid.root_eq
      rw [laid.ancestorsFrom_root]
      rfl
  | append_singleton path key inductionHypothesis =>
      rw [List.length_append, List.length_singleton] at enough ⊢
      obtain ⟨bound, rfl⟩ : ∃ fewer, bound = fewer + 1 := ⟨bound - 1, by omega⟩
      obtain ⟨parent, there, further⟩ := laid.exists_ancestorsFrom here bound
      rw [further, List.length_cons, inductionHypothesis there (by omega)]

/-- A node has as many nodes above it as its path is long. -/
theorem Laid.length_ancestors (laid : tree.Laid paths) (here : paths[id]? = some path) :
    (tree.ancestors id).length = path.length :=
  laid.length_ancestorsFrom here (Nat.le_of_lt (laid.length_lt here))

theorem Laid.atDepth_root (laid : tree.Laid paths) : AtDepth paths 0 [root] := by
  intro id member
  rw [List.mem_singleton.mp member]
  exact ⟨[], laid.root_eq, rfl⟩

/-- The nodes which are visited below the root are all nodes. -/
theorem Laid.perm_range
    (laid : tree.Laid paths)
    (preorder : tree.Preorder 0 [root] visits) :
    (visits.map Prod.fst).Perm (List.range tree.size) := by
  refine (List.perm_ext_iff_of_nodup
    (preorder.nodup laid laid.atDepth_root (List.nodup_singleton root)) List.nodup_range).mpr ?_
  intro id
  rw [preorder.mem_iff laid laid.atDepth_root, List.mem_range]
  constructor
  · rintro ⟨_, _, _, path, _, place, _⟩
    exact laid.lt_size place
  · intro inside
    obtain ⟨path, place⟩ := laid.exists_path inside
    exact ⟨root, List.mem_singleton_self root, [], path, laid.root_eq, place, List.nil_prefix⟩

/-- A walk visits the root and all nodes below it, in order. -/
theorem Laid.preorder_walk (laid : tree.Laid paths) :
    tree.Preorder 0 [root] tree.walk ∧ tree.Walks [(root, 0)] tree.walk := by
  obtain ⟨visits, preorder⟩ := laid.exists_preorder 0 [root]
  have walks : tree.Walks [(root, 0)] visits := by
    simpa using preorder.walks .done
  have count := (laid.perm_range preorder).length_eq
  rw [List.length_map, List.length_range] at count
  have same : tree.walk = visits := walks.walkFrom_eq (Nat.le_of_eq count) []
  rw [same]
  exact ⟨preorder, walks⟩

/-- A walk visits a node and all nodes below it one right behind the other. -/
theorem Laid.exists_block (laid : tree.Laid paths) (inside : id < tree.size) :
    ∃ below, (tree.children id).Sublist below ∧ id :: below <:+: tree.walk.map Prod.fst ∧
      ∀ other, other ∈ id :: below ↔ other = id ∨ id ∈ tree.ancestors other := by
  obtain ⟨preorder, _⟩ := laid.preorder_walk
  obtain ⟨⟨_, depth⟩, member, rfl⟩ :=
    List.mem_map.mp ((laid.perm_range preorder).mem_iff.mpr (List.mem_range.mpr inside))
  obtain ⟨path, here, rfl⟩ := preorder.atDepth laid laid.atDepth_root member
  obtain ⟨below, down, block⟩ := preorder.exists_infix member
  refine ⟨below.map Prod.fst, down.sublist, block.map Prod.fst, fun other => ?_⟩
  rw [List.mem_cons, down.mem_iff laid (laid.atDepth_children here), ← laid.under_iff here,
    laid.under_iff_mem_ancestors inside]

/-- What is above a node is another node of the tree. -/
theorem Laid.ne_of_mem_ancestors
    (laid : tree.Laid paths)
    {above : Nat}
    (isAbove : above ∈ tree.ancestors id) :
    above < tree.size ∧ above ≠ id := by
  by_cases inside : id < tree.size
  · obtain ⟨path, here⟩ := laid.exists_path inside
    obtain ⟨start, there, _, shorter⟩ := (laid.mem_ancestors_iff here).mp isAbove
    refine ⟨laid.lt_size there, ?_⟩
    rintro rfl
    cases there.symm.trans here
    exact shorter rfl
  · rw [ancestors_of_size_le (Nat.le_of_not_lt inside)] at isAbove
    cases isAbove

/-- Through a tree which is laid out a walk comes to every node once, in order. -/
theorem Laid.walksInOrder (laid : tree.Laid paths) : tree.WalksInOrder := by
  obtain ⟨preorder, walks⟩ := laid.preorder_walk
  constructor
  case ends => exact walks
  case once => exact laid.perm_range preorder
  case downward =>
    intro id above isAbove
    obtain ⟨inside, other⟩ := laid.ne_of_mem_ancestors isAbove
    obtain ⟨below, _, block, mem_block⟩ := laid.exists_block inside
    have member : id ∈ below :=
      (List.mem_cons.mp ((mem_block id).mpr (Or.inr isAbove))).resolve_left fun same =>
        other same.symm
    exact ((List.singleton_sublist.mpr member).cons_cons above).trans block.sublist
  case siblings =>
    intro id
    by_cases inside : id < tree.size
    · obtain ⟨below, among, block, _⟩ := laid.exists_block inside
      exact (among.trans (List.sublist_cons_self _ _)).trans block.sublist
    · rw [children_of_size_le (Nat.le_of_not_lt inside)]
      exact List.nil_sublist _
  case together =>
    intro id inside
    obtain ⟨below, _, block, mem_block⟩ := laid.exists_block inside
    exact ⟨id :: below, block, mem_block⟩
  case depth =>
    intro id depth member
    obtain ⟨path, here, rfl⟩ := preorder.atDepth laid laid.atDepth_root member
    exact (laid.length_ancestors here).symm

/-- However a tree was made, its nodes agree about which of them are below which, a walk
through it comes to every node once, in order, and the copying of its virtual frames ends. -/
theorem wellFormed_ofChanges (changes : List Change) :
    (ofChanges changes).WellFormed ∧
      (ofChanges changes).WalksInOrder ∧
      (ofChanges changes).CopiesTo
        { copy := empty.modifyNode root (takeRoot (ofChanges changes)), waiting := [(root, root)] }
        (ofChanges changes).virtualOnly := by
  obtain ⟨paths, laid⟩ := exists_laid_ofChanges changes
  exact ⟨laid.wellFormed, laid.walksInOrder, laid.copiesTo_virtualOnly⟩

end CallTree
end RuntimeLog
