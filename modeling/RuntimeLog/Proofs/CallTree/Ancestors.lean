import Mathlib.Data.List.Induction
import Mathlib.Data.List.Nodup
import Mathlib.Data.List.Perm.Subperm
import RuntimeLog.Proofs.CallTree.Layout

/-!
# Nodes above a node

The nodes above a node are those at the beginnings of its path.  Among the nodes of
one function on a path, which a recursive function has many of, the topmost one is
where the path first comes to the function.
-/

namespace RuntimeLog
namespace CallTree

/-- The nodes above a node, the nearest one first.  The number bounds the steps. -/
def ancestorsFrom (tree : CallTree) : Nat → Nat → List Nat
  | 0, _ => []
  | bound + 1, id =>
      match (tree.node? id).bind CallNode.parent with
      | none => []
      | some above => above :: tree.ancestorsFrom bound above

/-- The nodes above a node, the nearest one first. -/
def ancestors (tree : CallTree) (id : Nat) : List Nat :=
  tree.ancestorsFrom tree.size id

/-- Whether a node is one of the functions with some name. -/
def isNamed (tree : CallTree) (name : String) (id : Nat) : Bool :=
  (tree.node? id).any fun node => node.frame.name == name

/-- Whether a node is one of the functions with some name and none of those above it
is, the root apart. -/
def isTopmost (tree : CallTree) (name : String) (id : Nat) : Bool :=
  id != root && tree.isNamed name id &&
    (tree.ancestors id).all fun above => above == root || !tree.isNamed name above

/-- Whether the function at the end of a path is the first one on it with some
name. -/
def endsFirst (name : String) (path : List FrameKey) : Bool :=
  path.getLast?.any (fun key => key.name == name) && path.dropLast.all fun key => key.name != name

variable {tree : CallTree} {paths : List (List FrameKey)} {path : List FrameKey}
variable {id : Nat} {name : String}

/-! ## Ancestors -/

/-- A path is shorter than the list of all paths, which has all its beginnings. -/
theorem Laid.length_lt (laid : tree.Laid paths) (here : paths[id]? = some path) :
    path.length < tree.size := by
  have beginnings : ((List.range (path.length + 1)).map path.take).Nodup := by
    refine List.Nodup.map_on ?_ List.nodup_range
    intro first firstInside second secondInside same
    have lengths := congrArg List.length same
    rw [List.length_take, List.length_take] at lengths
    rw [List.mem_range] at firstInside secondInside
    omega
  have included : (List.range (path.length + 1)).map path.take ⊆ paths := by
    intro start member
    obtain ⟨length, _, rfl⟩ := List.mem_map.mp member
    have whole := List.mem_of_getElem? here
    rw [← List.take_append_drop length path] at whole
    exact laid.closed_append whole
  have bound := (beginnings.subperm included).length_le
  rw [List.length_map, List.length_range, laid.size_eq] at bound
  exact bound

/-- No node is above the root. -/
theorem Laid.ancestorsFrom_root (laid : tree.Laid paths) (bound : Nat) :
    tree.ancestorsFrom bound root = [] := by
  obtain ⟨node, known⟩ := laid.exists_node laid.root_eq
  have parentless : (tree.node? root).bind CallNode.parent = none := by
    rw [known, Option.bind_some, laid.parentless node known]
  cases bound with
  | zero => rfl
  | succ bound => rw [ancestorsFrom, parentless]

/-- Above a node is the node at the beginning of its path, and what is above that one. -/
theorem Laid.exists_ancestorsFrom
    (laid : tree.Laid paths)
    {key : FrameKey}
    (here : paths[id]? = some (path ++ [key]))
    (bound : Nat) :
    ∃ parent, paths[parent]? = some path ∧
      tree.ancestorsFrom (bound + 1) id = parent :: tree.ancestorsFrom bound parent := by
  obtain ⟨node, known⟩ := laid.exists_node here
  obtain ⟨parent, below, there⟩ := laid.parent_eq id node path key known here
  have parentIs : (tree.node? id).bind CallNode.parent = some parent := by
    rw [known, Option.bind_some, below]
  exact ⟨parent, there, by rw [ancestorsFrom, parentIs]⟩

/-- The nodes above a node are those at the shorter beginnings of its path. -/
theorem Laid.mem_ancestorsFrom_iff
    (laid : tree.Laid paths)
    (here : paths[id]? = some path)
    {bound : Nat}
    (enough : path.length ≤ bound)
    {above : Nat} :
    above ∈ tree.ancestorsFrom bound id ↔
      ∃ start, paths[above]? = some start ∧ start <+: path ∧ start ≠ path := by
  induction path using List.reverseRecOn generalizing id bound with
  | nil =>
      cases laid.id_inj here laid.root_eq
      rw [laid.ancestorsFrom_root]
      refine iff_of_false List.not_mem_nil ?_
      rintro ⟨start, _, begins, other⟩
      exact other (List.prefix_nil.mp begins)
  | append_singleton path key inductionHypothesis =>
      rw [List.length_append, List.length_singleton] at enough
      obtain ⟨bound, rfl⟩ : ∃ fewer, bound = fewer + 1 := ⟨bound - 1, by omega⟩
      obtain ⟨parent, there, further⟩ := laid.exists_ancestorsFrom here bound
      rw [further, List.mem_cons, inductionHypothesis there (by omega)]
      constructor
      · rintro (rfl | ⟨start, elsewhere, begins, other⟩)
        · exact ⟨path, there, List.prefix_append path [key], by simp⟩
        · refine ⟨start, elsewhere, begins.trans (List.prefix_append path [key]), ?_⟩
          rintro rfl
          have short := begins.length_le
          rw [List.length_append, List.length_singleton] at short
          omega
      · rintro ⟨start, elsewhere, begins, other⟩
        rcases List.prefix_concat_iff.mp begins with whole | shorter
        · exact absurd whole other
        · by_cases same : start = path
          · subst same
            exact Or.inl (laid.id_inj elsewhere there)
          · exact Or.inr ⟨start, elsewhere, shorter, same⟩

/-- The nodes above a node are those at the shorter beginnings of its path. -/
theorem Laid.mem_ancestors_iff
    (laid : tree.Laid paths)
    (here : paths[id]? = some path)
    {above : Nat} :
    above ∈ tree.ancestors id ↔
      ∃ start, paths[above]? = some start ∧ start <+: path ∧ start ≠ path :=
  laid.mem_ancestorsFrom_iff here (Nat.le_of_lt (laid.length_lt here))

/-! ## Topmost nodes -/

theorem endsFirst_concat (name : String) (start : List FrameKey) (key : FrameKey) :
    endsFirst name (start ++ [key]) =
      (key.name == name && start.all fun above => above.name != name) := by
  simp [endsFirst]

theorem Laid.isNamed_eq
    (laid : tree.Laid paths)
    {start : List FrameKey}
    {key : FrameKey}
    (here : paths[id]? = some (start ++ [key])) :
    tree.isNamed name id = (key.name == name) := by
  obtain ⟨node, known⟩ := laid.exists_node here
  have same := laid.key_eq id node start key known here
  unfold isNamed
  rw [known, Option.any_some, ← same]
  rfl

/-- A node is topmost if its path first comes to its function there. -/
theorem Laid.isTopmost_eq (laid : tree.Laid paths) (here : paths[id]? = some path) :
    tree.isTopmost name id = endsFirst name path := by
  rcases List.eq_nil_or_concat path with rfl | ⟨start, key, rfl⟩
  · cases laid.id_inj here laid.root_eq
    rfl
  · rw [List.concat_eq_append] at here ⊢
    have below : id ≠ root := by
      rintro rfl
      exact absurd (here.symm.trans laid.root_eq) (by simp)
    have above : (tree.ancestors id).all (fun above => above == root || !tree.isNamed name above) =
        start.all fun above => above.name != name := by
      rw [Bool.eq_iff_iff, List.all_eq_true, List.all_eq_true]
      constructor
      · intro others before member
        obtain ⟨first, last, rfl⟩ := List.append_of_mem member
        have begins : first ++ [before] <+: (first ++ before :: last) ++ [key] :=
          ⟨last ++ [key], by simp⟩
        have other : first ++ [before] ≠ (first ++ before :: last) ++ [key] := by
          intro same
          have lengths := congrArg List.length same
          simp only [List.length_append, List.length_cons, List.length_nil] at lengths
          omega
        obtain ⟨ancestor, there⟩ := List.getElem?_of_mem
          (laid.closed_append (begins.choose_spec ▸ List.mem_of_getElem? here))
        have notNamed := others ancestor
          ((laid.mem_ancestors_iff here).mpr ⟨_, there, begins, other⟩)
        have inner : ancestor ≠ root := by
          rintro rfl
          exact absurd (there.symm.trans laid.root_eq) (by simp)
        rw [laid.isNamed_eq there, Bool.or_eq_true, beq_iff_eq, or_iff_right inner] at notNamed
        exact notNamed
      · intro others ancestor member
        obtain ⟨beginning, there, begins, other⟩ := (laid.mem_ancestors_iff here).mp member
        rcases List.eq_nil_or_concat beginning with rfl | ⟨first, before, rfl⟩
        · rw [laid.id_inj there laid.root_eq]
          rfl
        · rw [List.concat_eq_append] at there begins other
          have within := (List.prefix_concat_iff.mp begins).resolve_left other
          have member : before ∈ start := within.subset (by simp)
          rw [laid.isNamed_eq there, Bool.or_eq_true]
          exact Or.inr (others before member)
    have notRoot : (id != root) = true := bne_iff_ne.mpr below
    unfold isTopmost
    rw [above, laid.isNamed_eq here, endsFirst_concat, notRoot, Bool.true_and]

/-! ## First functions of a name -/

theorem endsFirst_concat_iff {start : List FrameKey} {key : FrameKey} :
    endsFirst name (start ++ [key]) ↔ key.name = name ∧ ∀ above ∈ start, above.name ≠ name := by
  rw [endsFirst_concat]
  simp

/-- A path which ends with a function has it. -/
theorem exists_name_of_endsFirst (ends : endsFirst name path) : ∃ key ∈ path, key.name = name := by
  rcases List.eq_nil_or_concat path with rfl | ⟨start, key, rfl⟩
  · cases ends
  · rw [List.concat_eq_append] at ends ⊢
    exact ⟨key, by simp, (endsFirst_concat_iff.mp ends).1⟩

theorem endsFirst_cons {key : FrameKey} (other : key.name ≠ name) (ends : endsFirst name path) :
    endsFirst name (key :: path) := by
  rcases List.eq_nil_or_concat path with rfl | ⟨start, last, rfl⟩
  · cases ends
  · rw [List.concat_eq_append] at ends ⊢
    obtain ⟨named, others⟩ := endsFirst_concat_iff.mp ends
    rw [← List.cons_append]
    exact endsFirst_concat_iff.mpr ⟨named, List.forall_mem_cons.mpr ⟨other, others⟩⟩

/-- A path which first comes to a function does not go on to where another one does. -/
theorem eq_of_endsFirst_of_begins
    {longer : List FrameKey}
    (begins : path <+: longer)
    (ends : endsFirst name path)
    (longerEnds : endsFirst name longer) :
    path = longer := by
  rcases List.eq_nil_or_concat longer with rfl | ⟨start, key, rfl⟩
  · exact List.prefix_nil.mp begins
  · rw [List.concat_eq_append] at begins longerEnds ⊢
    rcases List.prefix_concat_iff.mp begins with whole | within
    · exact whole
    · obtain ⟨earlier, member, named⟩ := exists_name_of_endsFirst ends
      exact absurd named ((endsFirst_concat_iff.mp longerEnds).2 earlier (within.subset member))

/-- No two beginnings of a stack first come to the functions with a name. -/
theorem eq_of_endsFirst
    {keys first second : List FrameKey}
    (firstPasses : first <+: keys)
    (secondPasses : second <+: keys)
    (firstEnds : endsFirst name first)
    (secondEnds : endsFirst name second) :
    first = second := by
  rcases List.prefix_or_prefix_of_prefix firstPasses secondPasses with begins | begins
  · exact eq_of_endsFirst_of_begins begins firstEnds secondEnds
  · exact (eq_of_endsFirst_of_begins begins secondEnds firstEnds).symm

/-- A stack first comes to the functions with a name somewhere if it has one of
them. -/
theorem exists_endsFirst_iff {keys : List FrameKey} :
    (∃ start, start <+: keys ∧ endsFirst name start) ↔ ∃ key ∈ keys, key.name = name := by
  constructor
  · rintro ⟨start, passes, ends⟩
    obtain ⟨key, member, named⟩ := exists_name_of_endsFirst ends
    exact ⟨key, passes.subset member, named⟩
  · intro has
    induction keys with
    | nil => simp at has
    | cons key keys inductionHypothesis =>
        by_cases here : key.name = name
        · exact ⟨[key], List.cons_prefix_cons.mpr ⟨rfl, List.nil_prefix⟩, by simp [endsFirst, here]⟩
        · have later : ∃ key ∈ keys, key.name = name := by simpa [here] using has
          obtain ⟨start, passes, ends⟩ := inductionHypothesis later
          exact ⟨key :: start, List.cons_prefix_cons.mpr ⟨rfl, passes⟩, endsFirst_cons here ends⟩

end CallTree
end RuntimeLog
