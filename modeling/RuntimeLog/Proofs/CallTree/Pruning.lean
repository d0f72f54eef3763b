import Mathlib.Data.List.Induction
import Mathlib.Data.List.Nodup
import RuntimeLog.CallTree.Virtual
import RuntimeLog.Proofs.CallTree.Counts
import RuntimeLog.Proofs.CallTree.VirtualPaths

/-!
# Leaving out native frames

The copy of a tree without its native frames is made with a list of nodes which
wait.  Every node of the tree waits once, and what the copy holds at any time are
the ticks of the nodes visited so far, at the paths to which these are moved.  If
the tree counts what some stacks say, so that its ticks are known, then those of
the copy are, too.
-/

namespace RuntimeLog

/-- Ticks after those of a copied node joined them. -/
def NodeTicks.join (cumulative self : TagCounts) (ticks : NodeTicks) : NodeTicks :=
  { ticks with cumulative := ticks.cumulative.merge cumulative, self := ticks.self.merge self }

/-- Ticks with other cumulative ones. -/
def NodeTicks.withCumulative (cumulative : TagCounts) (ticks : NodeTicks) : NodeTicks :=
  { ticks with cumulative }

namespace CallTree

open TaggedStack (creditsWhere)

variable {tree : CallTree} {paths copyPaths visited : List (List FrameKey)}
variable {samples : List TaggedStack} {path start : List FrameKey} {key : FrameKey}
variable {state : Pruning} {expanded : List Nat} {child parent source target : Nat}

/-! ## Ticks of the copy -/

/-- The visited paths which are moved to a path. -/
def movedHere (visited : List (List FrameKey)) (path : List FrameKey) : List (List FrameKey) :=
  visited.filter fun start => movedTo? start = some path

theorem movedHere_concat (visited : List (List FrameKey)) (start path : List FrameKey) :
    movedHere (visited ++ [start]) path =
      if movedTo? start = some path then movedHere visited path ++ [start]
      else movedHere visited path := by
  by_cases moved : movedTo? start = some path <;> simp [movedHere, moved]

/-- The ticks at a path of a tree, if there are any. -/
def ticksAt (tree : CallTree) (path : List FrameKey) : NodeTicks :=
  (tree.ticksAt? path).getD .zero

/-- The ticks of the nodes at some paths after their copies were joined. -/
def joinedTicks (tree : CallTree) (starts : List (List FrameKey)) : NodeTicks :=
  starts.foldl
    (fun ticks start => ticks.join (tree.ticksAt start).cumulative (tree.ticksAt start).virtual)
    .zero

/-- The ticks at a path of the copy once the nodes at some paths were visited. -/
def joinedTicks?
    (tree : CallTree)
    (visited : List (List FrameKey))
    (path : List FrameKey) : Option NodeTicks :=
  if path = [] then some (.withCumulative (tree.ticksAt []).cumulative .zero)
  else if movedHere visited path = [] then none
  else some (tree.joinedTicks (movedHere visited path))

/-- A visited node joins its ticks to those at the path to which it is moved. -/
theorem joinedTicks?_concat
    (tree : CallTree)
    (visited : List (List FrameKey))
    (start path : List FrameKey) :
    tree.joinedTicks? (visited ++ [start]) path =
      if movedTo? start = some path then
        some (((tree.joinedTicks? visited path).getD .zero).join
          (tree.ticksAt start).cumulative (tree.ticksAt start).virtual)
      else tree.joinedTicks? visited path := by
  by_cases moved : movedTo? start = some path
  · have below : path ≠ [] := by
      rintro rfl
      exact movedTo?_ne_nil start moved
    rw [if_pos moved, joinedTicks?, joinedTicks?, if_neg below, if_neg below, movedHere_concat,
      if_pos moved, if_neg (List.append_ne_nil_of_right_ne_nil _ (List.cons_ne_nil _ _)),
      joinedTicks, List.foldl_concat]
    by_cases fresh : movedHere visited path = []
    · rw [if_pos fresh, fresh]
      rfl
    · rw [if_neg fresh]
      rfl
  · rw [if_neg moved, joinedTicks?, joinedTicks?, movedHere_concat, if_neg moved]

/-! ## Copying a child -/

/-- Join the ticks of a node to those of its copy. -/
def joinNode (node copied : CallNode) : CallNode :=
  { copied with
    cumulativeTicks := copied.cumulativeTicks.merge node.cumulativeTicks
    selfTicks := copied.selfTicks.merge node.virtualTicks }

theorem silent_joinNode (node : CallNode) : Silent (joinNode node) where
  frame_eq _ := rfl
  parent_eq _ := rfl
  children_eq _ := rfl
  childIndex_eq _ := rfl

theorem ticks_joinNode (node copied : CallNode) :
    (joinNode node copied).ticks =
      copied.ticks.join node.ticks.cumulative node.ticks.virtual :=
  rfl

theorem pruneChild_of_virtual
    {node : CallNode}
    (found : tree.node? child = some node)
    (virtual : node.frame.isVirtual = true)
    (target : Nat)
    (state : Pruning) :
    tree.pruneChild target child state =
      { copy := (state.copy.touch target node.frame (joinNode node)).1
        waiting :=
          (child, (state.copy.touch target node.frame (joinNode node)).2) :: state.waiting } := by
  unfold pruneChild
  rw [found]
  exact if_pos virtual

theorem pruneChild_of_native
    {node : CallNode}
    (found : tree.node? child = some node)
    (native : ¬ node.frame.isVirtual = true)
    (target : Nat)
    (state : Pruning) :
    tree.pruneChild target child state =
      { state with waiting := (child, target) :: state.waiting } := by
  unfold pruneChild
  rw [found]
  exact if_neg native

/-- The copy of a tree once the nodes at some paths were visited. -/
structure Copies
    (tree : CallTree)
    (paths visited : List (List FrameKey))
    (state : Pruning)
    (copyPaths : List (List FrameKey)) : Prop where
  laid : state.copy.Laid copyPaths
  /-- What is below a node which waits belongs below where that node was moved. -/
  waiting : ∀ source target, (source, target) ∈ state.waiting →
    ∃ path, paths[source]? = some path ∧
      copyPaths[target]? = some (path.filter FrameKey.isVirtual)
  ticks : ∀ path, state.copy.ticksAt? path = tree.joinedTicks? visited path

theorem getElem?_of_longer
    {earlier later : List (List FrameKey)}
    {id : Nat}
    (longer : earlier <+: later)
    (here : earlier[id]? = some path) :
    later[id]? = some path := by
  obtain ⟨rest, rfl⟩ := longer
  obtain ⟨inside, _⟩ := List.getElem?_eq_some_iff.mp here
  rw [List.getElem?_append_left inside, here]

/-- To copy an interpreter level function is to visit its path. -/
theorem Copies.exists_pruneChild_of_virtual
    (copies : Copies tree paths visited state copyPaths)
    (laid : tree.Laid paths)
    (here : copyPaths[target]? = some (path.filter FrameKey.isVirtual))
    (place : paths[child]? = some (path ++ [key]))
    (virtual : key.isVirtual = true) :
    ∃ laterPaths,
      Copies tree paths (visited ++ [path ++ [key]]) (tree.pruneChild target child state)
        laterPaths ∧
      copyPaths <+: laterPaths ∧
      (tree.pruneChild target child state).waiting.map Prod.fst =
        child :: state.waiting.map Prod.fst := by
  obtain ⟨node, found⟩ := laid.exists_node place
  have named : node.frame.key = key := laid.key_eq child node path key found place
  have ticks : node.ticks = tree.ticksAt (path ++ [key]) := by
    rw [ticksAt, laid.ticksAt?_eq place, found]
    rfl
  have extended : path.filter FrameKey.isVirtual ++ [key] =
      (path ++ [key]).filter FrameKey.isVirtual := by
    rw [List.filter_append, List.filter_cons_of_pos virtual, List.filter_nil]
  obtain ⟨laterPaths, later, longer, there, laterTicks⟩ :=
    copies.laid.exists_touch (silent_joinNode node) (ticks_joinNode node) here node.frame
  have virtualNode : node.frame.key.isVirtual = true := by
    rw [named]
    exact virtual
  rw [pruneChild_of_virtual found virtualNode]
  refine ⟨laterPaths, ⟨later, ?_, ?_⟩, longer, rfl⟩
  · intro source target member
    rcases List.mem_cons.mp member with same | earlier
    · cases same
      refine ⟨path ++ [key], place, ?_⟩
      rw [there, named, extended]
    · obtain ⟨above, known, below⟩ := copies.waiting source target earlier
      exact ⟨above, known, getElem?_of_longer longer below⟩
  · intro other
    apply (laterTicks other).trans
    rw [joinedTicks?_concat, movedTo?_concat, if_pos virtual, named, ticks, copies.ticks]
    by_cases own : other = path.filter FrameKey.isVirtual ++ [key]
    · rw [if_pos own, if_pos (congrArg some own.symm)]
    · rw [if_neg own, if_neg fun same => own (Option.some.inj same).symm]

/-- To leave out a native frame is to visit its path. -/
theorem Copies.pruneChild_of_native
    (copies : Copies tree paths visited state copyPaths)
    (laid : tree.Laid paths)
    (here : copyPaths[target]? = some (path.filter FrameKey.isVirtual))
    (place : paths[child]? = some (path ++ [key]))
    (native : ¬ key.isVirtual = true) :
    Copies tree paths (visited ++ [path ++ [key]]) (tree.pruneChild target child state)
        copyPaths ∧
      (tree.pruneChild target child state).waiting.map Prod.fst =
        child :: state.waiting.map Prod.fst := by
  obtain ⟨node, found⟩ := laid.exists_node place
  have named : node.frame.key = key := laid.key_eq child node path key found place
  have shortened :
      (path ++ [key]).filter FrameKey.isVirtual = path.filter FrameKey.isVirtual := by
    rw [List.filter_append, List.filter_cons_of_neg native, List.filter_nil, List.append_nil]
  have nativeNode : ¬ node.frame.key.isVirtual = true := by
    rw [named]
    exact native
  rw [CallTree.pruneChild_of_native found nativeNode]
  refine ⟨⟨copies.laid, ?_, ?_⟩, rfl⟩
  · intro source target member
    rcases List.mem_cons.mp member with same | earlier
    · cases same
      refine ⟨path ++ [key], place, ?_⟩
      rw [shortened, here]
    · exact copies.waiting source target earlier
  · intro other
    rw [joinedTicks?_concat, movedTo?_concat, if_neg native, if_neg nofun]
    exact copies.ticks other

/-- To copy a child is to visit its path. -/
theorem Copies.exists_pruneChild
    (copies : Copies tree paths visited state copyPaths)
    (laid : tree.Laid paths)
    (here : copyPaths[target]? = some (path.filter FrameKey.isVirtual))
    (place : paths[child]? = some (path ++ [key])) :
    ∃ laterPaths,
      Copies tree paths (visited ++ [path ++ [key]]) (tree.pruneChild target child state)
        laterPaths ∧
      copyPaths <+: laterPaths ∧
      (tree.pruneChild target child state).waiting.map Prod.fst =
        child :: state.waiting.map Prod.fst := by
  cases virtual : key.isVirtual with
  | true => exact copies.exists_pruneChild_of_virtual laid here place virtual
  | false =>
      have native : ¬ key.isVirtual = true := by simp [virtual]
      obtain ⟨later, waits⟩ := copies.pruneChild_of_native laid here place native
      exact ⟨copyPaths, later, List.prefix_rfl, waits⟩

/-! ## Copying all nodes -/

/-- The path of a node. -/
def pathOf (paths : List (List FrameKey)) (id : Nat) : List FrameKey :=
  paths[id]?.getD []

/-- The nodes which are visited when the nodes below some nodes are, in the order
of the visits. -/
def visitedBelow (tree : CallTree) (expanded : List Nat) : List Nat :=
  expanded.flatMap fun id => (tree.children id).reverse

theorem visitedBelow_concat (tree : CallTree) (expanded : List Nat) (source : Nat) :
    tree.visitedBelow (expanded ++ [source]) =
      tree.visitedBelow expanded ++ (tree.children source).reverse := by
  rw [visitedBelow, List.flatMap_append, List.flatMap_singleton]
  rfl

theorem mem_visitedBelow :
    child ∈ tree.visitedBelow expanded ↔ ∃ parent ∈ expanded, child ∈ tree.children parent := by
  simp only [visitedBelow, List.mem_flatMap, List.mem_reverse]

/-- To copy children is to visit their paths, the last child first. -/
theorem Copies.exists_pruneChildren
    (copies : Copies tree paths visited state copyPaths)
    (laid : tree.Laid paths)
    (here : copyPaths[target]? = some (path.filter FrameKey.isVirtual))
    {ids : List Nat}
    (places : ∀ child ∈ ids, ∃ key, paths[child]? = some (path ++ [key])) :
    ∃ laterPaths,
      Copies tree paths (visited ++ ids.reverse.map (pathOf paths))
        (ids.foldr (tree.pruneChild target) state) laterPaths ∧
      copyPaths <+: laterPaths ∧
      (ids.foldr (tree.pruneChild target) state).waiting.map Prod.fst =
        ids ++ state.waiting.map Prod.fst := by
  induction ids with
  | nil =>
      refine ⟨copyPaths, ?_, List.prefix_rfl, rfl⟩
      rw [List.reverse_nil, List.map_nil, List.append_nil]
      exact copies
  | cons child ids inductionHypothesis =>
      obtain ⟨key, place⟩ := places child List.mem_cons_self
      obtain ⟨middlePaths, middle, longer, waiting⟩ :=
        inductionHypothesis fun child member => places child (List.mem_cons_of_mem _ member)
      obtain ⟨laterPaths, later, furtherLonger, waitingLater⟩ :=
        middle.exists_pruneChild laid (getElem?_of_longer longer here) place
      have last : pathOf paths child = path ++ [key] := by
        unfold pathOf
        rw [place, Option.getD_some]
      refine ⟨laterPaths, ?_, longer.trans furtherLonger, ?_⟩
      · rw [List.reverse_cons, List.map_append, List.map_singleton, last, ← List.append_assoc]
        exact later
      · rw [List.foldr_cons, waitingLater, waiting, List.cons_append]

/-- The state of the copying of a tree once the nodes below some nodes were
visited.  Every node which was visited was expanded or waits, and only once. -/
structure Prunes
    (tree : CallTree)
    (paths : List (List FrameKey))
    (expanded : List Nat)
    (state : Pruning) : Prop where
  copies : ∃ copyPaths,
    Copies tree paths ((tree.visitedBelow expanded).map (pathOf paths)) state copyPaths
  once : (expanded ++ state.waiting.map Prod.fst).Perm (root :: tree.visitedBelow expanded)
  distinct : expanded.Nodup

theorem Laid.root_not_child (laid : tree.Laid paths) (parent : Nat) :
    root ∉ tree.children parent := by
  intro member
  obtain ⟨path, key, _, place⟩ := (laid.child_iff parent root).mp member
  have same := Option.some.inj (laid.root_eq.symm.trans place)
  exact List.append_ne_nil_of_right_ne_nil path (List.cons_ne_nil key []) same.symm

theorem Laid.parent_unique
    (laid : tree.Laid paths)
    {other : Nat}
    (here : child ∈ tree.children parent)
    (there : child ∈ tree.children other) :
    parent = other := by
  obtain ⟨path, key, above, place⟩ := (laid.child_iff parent child).mp here
  obtain ⟨otherPath, otherKey, otherAbove, otherPlace⟩ := (laid.child_iff other child).mp there
  have same := Option.some.inj (place.symm.trans otherPlace)
  obtain ⟨rfl, _⟩ := List.append_inj' same rfl
  exact laid.id_inj above otherAbove

/-- Below different nodes there are different nodes. -/
theorem Laid.nodup_visitedBelow (laid : tree.Laid paths) (distinct : expanded.Nodup) :
    (root :: tree.visitedBelow expanded).Nodup := by
  rw [List.nodup_cons]
  constructor
  · intro member
    obtain ⟨parent, _, below⟩ := mem_visitedBelow.mp member
    exact laid.root_not_child parent below
  · unfold visitedBelow
    rw [List.nodup_flatMap]
    refine ⟨fun parent _ => List.nodup_reverse.mpr (laid.children_nodup parent), ?_⟩
    apply distinct.imp
    intro parent other different child here there
    rw [List.mem_reverse] at here there
    exact different (laid.parent_unique here there)

theorem Prunes.nodup
    (prunes : Prunes tree paths expanded state)
    (laid : tree.Laid paths) :
    (expanded ++ state.waiting.map Prod.fst).Nodup :=
  prunes.once.nodup_iff.mpr (laid.nodup_visitedBelow prunes.distinct)

/-- There are no more nodes to expand than there are in the tree. -/
theorem Prunes.length_le
    (prunes : Prunes tree paths expanded state)
    (laid : tree.Laid paths) :
    expanded.length + state.waiting.length ≤ tree.size := by
  have inside : expanded ++ state.waiting.map Prod.fst ⊆ List.range tree.size := by
    intro id member
    rw [List.mem_range]
    rcases List.mem_cons.mp (prunes.once.mem_iff.mp member) with rfl | below
    · exact laid.lt_size laid.root_eq
    · obtain ⟨parent, _, child⟩ := mem_visitedBelow.mp below
      exact laid.lt_of_child child
  have bound := (prunes.nodup laid).length_le_of_subset inside
  rwa [List.length_append, List.length_map, List.length_range] at bound

/-- To expand a node which waits is to visit the nodes below it. -/
theorem Prunes.expand
    {waiting : List (Nat × Nat)}
    (prunes : Prunes tree paths expanded state)
    (laid : tree.Laid paths)
    (next : state.waiting = (source, target) :: waiting) :
    Prunes tree paths (expanded ++ [source])
      ((tree.children source).foldr (tree.pruneChild target) { state with waiting }) := by
  obtain ⟨copyPaths, copies⟩ := prunes.copies
  have first : (source, target) ∈ state.waiting := by
    rw [next]
    exact List.mem_cons_self
  obtain ⟨path, above, here⟩ := copies.waiting source target first
  have rest : Copies tree paths ((tree.visitedBelow expanded).map (pathOf paths))
      { state with waiting } copyPaths :=
    { copies with
      waiting := fun source target member => copies.waiting source target (by
        rw [next]
        exact List.mem_cons_of_mem _ member) }
  have places : ∀ child ∈ tree.children source, ∃ key, paths[child]? = some (path ++ [key]) := by
    intro child member
    obtain ⟨known, key, there, place⟩ := (laid.child_iff source child).mp member
    cases above.symm.trans there
    exact ⟨key, place⟩
  obtain ⟨laterPaths, later, _, waits⟩ := rest.exists_pruneChildren laid here places
  have once := prunes.once
  have nodup := prunes.nodup laid
  rw [next, List.map_cons, List.append_cons] at once nodup
  refine ⟨⟨laterPaths, ?_⟩, ?_, (List.nodup_append.mp nodup).1⟩
  · rw [visitedBelow_concat, List.map_append]
    exact later
  · rw [waits, visitedBelow_concat]
    calc
      (expanded ++ [source] ++ (tree.children source ++ waiting.map Prod.fst)).Perm
          (expanded ++ [source] ++ (waiting.map Prod.fst ++ tree.children source)) :=
        List.perm_append_comm.append_left _
      List.Perm _ (root :: tree.visitedBelow expanded ++ tree.children source) := by
        rw [← List.append_assoc]
        exact once.append_right _
      List.Perm _ (root :: (tree.visitedBelow expanded ++ (tree.children source).reverse)) :=
        (List.reverse_perm _).symm.append_left _

/-- The copying goes on until no node waits. -/
theorem Prunes.exists_pruneFrom
    {bound : Nat}
    (prunes : Prunes tree paths expanded state)
    (laid : tree.Laid paths)
    (enough : bound + expanded.length = tree.size) :
    ∃ allExpanded final,
      Prunes tree paths allExpanded final ∧
      final.waiting = [] ∧
      tree.pruneFrom bound state = final.copy := by
  induction bound generalizing expanded state with
  | zero =>
      refine ⟨expanded, state, prunes, ?_, rfl⟩
      have room := prunes.length_le laid
      rw [← List.length_eq_zero_iff]
      omega
  | succ bound inductionHypothesis =>
      unfold pruneFrom
      cases next : state.waiting with
      | nil => exact ⟨expanded, state, prunes, next, rfl⟩
      | cons entry waiting =>
          obtain ⟨source, target⟩ := entry
          apply inductionHypothesis (prunes.expand laid next)
          rw [List.length_append, List.length_singleton]
          omega

/-- Once no node waits, every node was expanded. -/
theorem Prunes.mem_expanded
    (prunes : Prunes tree paths expanded state)
    (laid : tree.Laid paths)
    (done : state.waiting = [])
    {id : Nat}
    (here : paths[id]? = some path) :
    id ∈ expanded := by
  have once := prunes.once
  rw [done, List.map_nil, List.append_nil] at once
  induction path using List.reverseRecOn generalizing id with
  | nil =>
      rw [laid.id_inj here laid.root_eq]
      exact once.mem_iff.mpr List.mem_cons_self
  | append_singleton path key inductionHypothesis =>
      obtain ⟨parent, above⟩ :=
        List.getElem?_of_mem (laid.closed path key (List.mem_of_getElem? here))
      have below := (laid.child_iff parent id).mpr ⟨path, key, above, here⟩
      exact once.mem_iff.mpr
        (List.mem_cons_of_mem _ (mem_visitedBelow.mpr ⟨parent, inductionHypothesis above, below⟩))

theorem Prunes.mem_visited
    (prunes : Prunes tree paths expanded state)
    (laid : tree.Laid paths)
    (done : state.waiting = []) :
    start ∈ (tree.visitedBelow expanded).map (pathOf paths) ↔ start ≠ [] ∧ start ∈ paths := by
  rw [List.mem_map]
  constructor
  · rintro ⟨child, visited, rfl⟩
    obtain ⟨parent, _, below⟩ := mem_visitedBelow.mp visited
    obtain ⟨path, key, _, place⟩ := (laid.child_iff parent child).mp below
    unfold pathOf
    rw [place, Option.getD_some]
    refine ⟨List.append_ne_nil_of_right_ne_nil _ (List.cons_ne_nil _ _), ?_⟩
    exact List.mem_of_getElem? place
  · rintro ⟨below, member⟩
    obtain ⟨child, place⟩ := List.getElem?_of_mem member
    refine ⟨child, ?_, by rw [pathOf, place, Option.getD_some]⟩
    rcases List.eq_nil_or_concat start with rfl | ⟨path, key, rfl⟩
    · exact absurd rfl below
    · rw [List.concat_eq_append] at place
      obtain ⟨parent, above⟩ :=
        List.getElem?_of_mem (laid.closed path key (List.mem_of_getElem? place))
      exact mem_visitedBelow.mpr ⟨parent, prunes.mem_expanded laid done above,
        (laid.child_iff parent child).mpr ⟨path, key, above, place⟩⟩

theorem Prunes.nodup_visited
    (prunes : Prunes tree paths expanded state)
    (laid : tree.Laid paths) :
    ((tree.visitedBelow expanded).map (pathOf paths)).Nodup := by
  refine List.Nodup.map_on ?_ (List.nodup_cons.mp (laid.nodup_visitedBelow prunes.distinct)).2
  intro first here second there same
  obtain ⟨_, _, firstBelow⟩ := mem_visitedBelow.mp here
  obtain ⟨_, _, secondBelow⟩ := mem_visitedBelow.mp there
  obtain ⟨_, _, _, firstPlace⟩ := (laid.child_iff _ first).mp firstBelow
  obtain ⟨_, _, _, secondPlace⟩ := (laid.child_iff _ second).mp secondBelow
  rw [pathOf, pathOf, firstPlace, secondPlace, Option.getD_some, Option.getD_some] at same
  exact laid.id_inj firstPlace (same ▸ secondPlace)

/-- Give the root of a copy the cumulative ticks of the root of a tree. -/
def takeRoot (tree : CallTree) (node : CallNode) : CallNode :=
  { node with cumulativeTicks := ((tree.node? root).map CallNode.cumulativeTicks).getD ∅ }

theorem virtualOnly_eq (tree : CallTree) :
    tree.virtualOnly =
      tree.pruneFrom tree.size
        { copy := empty.modifyNode root (takeRoot tree), waiting := [(root, root)] } :=
  rfl

theorem silent_takeRoot (tree : CallTree) : Silent (takeRoot tree) where
  frame_eq _ := rfl
  parent_eq _ := rfl
  children_eq _ := rfl
  childIndex_eq _ := rfl

theorem Laid.ticks_takeRoot (laid : tree.Laid paths) (node : CallNode) :
    (takeRoot tree node).ticks = .withCumulative (tree.ticksAt []).cumulative node.ticks := by
  obtain ⟨top, found⟩ := laid.exists_node laid.root_eq
  unfold takeRoot ticksAt
  rw [laid.ticksAt?_eq laid.root_eq, found]
  rfl

/-- The copying starts with the root. -/
theorem Laid.prunes_start (laid : tree.Laid paths) :
    Prunes tree paths []
      { copy := empty.modifyNode root (takeRoot tree), waiting := [(root, root)] } where
  copies := by
    have silent := silent_takeRoot tree
    refine ⟨[[]], laid_empty.modifyNode silent root, ?_, fun path => ?_⟩
    · intro source target member
      cases List.mem_singleton.mp member
      exact ⟨[], laid.root_eq, rfl⟩
    · refine (laid_empty.ticksAt?_modifyNode silent laid.ticks_takeRoot laid_empty.root_eq
        path).trans ?_
      by_cases top : path = []
      · rw [if_pos top, joinedTicks?, if_pos top]
        rfl
      · have missing : path ∉ [[]] := fun member => top (List.mem_singleton.mp member)
        rw [if_neg top, joinedTicks?, if_neg top, laid_empty.ticksAt?_eq_none.mpr missing]
        rfl
  once := List.Perm.refl _
  distinct := List.nodup_nil

/-- The copy holds the ticks of all nodes, each of which was visited once. -/
theorem Laid.exists_virtualOnly (laid : tree.Laid paths) :
    ∃ visited copyPaths,
      visited.Nodup ∧
      (∀ start, start ∈ visited ↔ start ≠ [] ∧ start ∈ paths) ∧
      tree.virtualOnly.Laid copyPaths ∧
      ∀ path, tree.virtualOnly.ticksAt? path = tree.joinedTicks? visited path := by
  obtain ⟨expanded, final, prunes, done, copied⟩ :=
    laid.prunes_start.exists_pruneFrom laid (Nat.add_zero _)
  obtain ⟨copyPaths, copies⟩ := prunes.copies
  refine ⟨(tree.visitedBelow expanded).map (pathOf paths), copyPaths, prunes.nodup_visited laid,
    fun start => prunes.mem_visited laid done, ?_, fun path => ?_⟩
  · rw [virtualOnly_eq, copied]
    exact copies.laid
  · rw [virtualOnly_eq, copied]
    exact copies.ticks path

/-! ## Copies of trees of stacks -/

/-- The ticks at a path of the copy of a tree of stacks once the nodes at some paths
were visited. -/
def copiedTicks?
    (samples : List TaggedStack)
    (visited : List (List FrameKey))
    (path : List FrameKey) : Option NodeTicks :=
  if path = [] then
    some
      { cumulative := .gather (creditsWhere (fun keys => [] <+: keys) samples)
        self := ∅
        virtual := ∅ }
  else if movedHere visited path = [] then none
  else
    some
      { cumulative := .gather ((movedHere visited path).flatMap fun start =>
          creditsWhere (fun keys => start <+: keys) samples)
        self := .gather ((movedHere visited path).flatMap fun start =>
          creditsWhere (RunsIn start) samples)
        virtual := ∅ }

theorem Folds.ticksAt_eq (folds : tree.Folds samples) (path : List FrameKey) :
    tree.ticksAt path = expectedTicks samples path := by
  unfold ticksAt
  by_cases has : HasPath samples path
  · rw [folds.ticks_of_path path has, Option.getD_some]
  · rw [folds.ticks_of_no_path path has, Option.getD_none, expectedTicks_eq_zero has]

/-- Joining the ticks of nodes is gathering the ticks of their stacks. -/
theorem Folds.joinedTicks_eq (folds : tree.Folds samples) (starts : List (List FrameKey)) :
    tree.joinedTicks starts =
      { cumulative := .gather (starts.flatMap fun start =>
          creditsWhere (fun keys => start <+: keys) samples)
        self := .gather (starts.flatMap fun start => creditsWhere (RunsIn start) samples)
        virtual := ∅ } := by
  induction starts using List.reverseRecOn with
  | nil => rfl
  | append_singleton starts start inductionHypothesis =>
      have last : tree.joinedTicks (starts ++ [start]) =
          (tree.joinedTicks starts).join (tree.ticksAt start).cumulative
            (tree.ticksAt start).virtual :=
        List.foldl_concat _ _ _ _
      rw [last, inductionHypothesis, folds.ticksAt_eq, NodeTicks.join, expectedTicks]
      simp only [TagCounts.merge_gather, List.flatMap_append, List.flatMap_singleton]

/-- The copy of a tree of stacks holds the ticks of these. -/
theorem Folds.joinedTicks?_eq
    (folds : tree.Folds samples)
    (visited : List (List FrameKey))
    (path : List FrameKey) :
    tree.joinedTicks? visited path = copiedTicks? samples visited path := by
  unfold joinedTicks? copiedTicks?
  rw [folds.joinedTicks_eq, folds.ticksAt_eq]
  rfl

/-- The copy of a tree of stacks holds the ticks of these at all paths, each of which was
visited once. -/
theorem Folds.exists_virtualOnly (folds : tree.Folds samples) :
    ∃ visited copyPaths,
      visited.Nodup ∧
      (∀ start, start ∈ visited ↔ start ≠ [] ∧ HasPath samples start) ∧
      tree.virtualOnly.Laid copyPaths ∧
      ∀ path, tree.virtualOnly.ticksAt? path = copiedTicks? samples visited path := by
  obtain ⟨paths, laid⟩ := folds.laid
  obtain ⟨visited, copyPaths, distinct, complete, copied, ticks⟩ := laid.exists_virtualOnly
  refine ⟨visited, copyPaths, distinct, fun start => ?_, copied, fun path => ?_⟩
  · rw [complete, folds.mem_paths laid]
  · rw [ticks, folds.joinedTicks?_eq]

end CallTree
end RuntimeLog
