import RuntimeLog.Proofs.CallTree.Layout
import RuntimeLog.Proofs.CallTree.Stacks

/-!
# Folding of stacks

A call tree counts what its stacks say: the ticks at a path are gathered from the
stacks which pass there, end there, or have their innermost interpreter level
function there.
-/

namespace RuntimeLog

/-- Ticks after those of a stack which passes were added. -/
def NodeTicks.addPassing (tag : StackTag) (count : UInt64) (ticks : NodeTicks) : NodeTicks :=
  { ticks with cumulative := ticks.cumulative.add tag count }

namespace CallTree

variable {tree : CallTree} {paths : List (List FrameKey)}

/-- Ticks at a path after those of a stack were added. -/
def creditAt
    (tag : StackTag)
    (count : UInt64)
    (keys path : List FrameKey)
    (ticks : NodeTicks) : NodeTicks where
  cumulative := ticks.cumulative.add tag count
  self := if keys = path then ticks.self.add tag count else ticks.self
  virtual := if RunsIn path keys then ticks.virtual.add tag count else ticks.virtual

theorem silent_creditNode (tag : StackTag) (count : UInt64) (isLast isDeepestVirtual : Bool) :
    Silent (creditNode tag count isLast isDeepestVirtual) where
  frame_eq _ := rfl
  parent_eq _ := rfl
  children_eq _ := rfl
  childIndex_eq _ := rfl

/-- Add the ticks of a stack to the root. -/
def creditRoot (tag : StackTag) (count : UInt64) (node : CallNode) : CallNode :=
  { node with cumulativeTicks := node.cumulativeTicks.add tag count }

theorem silent_creditRoot (tag : StackTag) (count : UInt64) : Silent (creditRoot tag count) where
  frame_eq _ := rfl
  parent_eq _ := rfl
  children_eq _ := rfl
  childIndex_eq _ := rfl

/-- The step of `addTagged` from a node on the path of a stack to the next one. -/
def descend
    (tag : StackTag)
    (count : UInt64)
    (frames : List Frame)
    (place : CallTree × Nat)
    (entry : Frame × Nat) : CallTree × Nat :=
  place.1.touch place.2 entry.1
    (creditNode tag count (entry.2 + 1 == frames.length) (deepestVirtual? frames == some entry.2))

theorem addTagged_of_some
    {tags : List StackTag}
    {tag : StackTag}
    (tagged : tags.getLast? = some tag)
    (tree : CallTree)
    (frames : List Frame)
    (count : UInt64) :
    tree.addTagged frames tags count =
      (frames.zipIdx.foldl (descend tag count frames)
        (tree.modifyNode root (creditRoot tag count), root)).1 := by
  unfold addTagged
  rw [tagged]
  rfl

/-- A node on the path of a stack is credited by what the stack has to do with its
path. -/
theorem ticks_creditNode
    {frames done rest : List Frame}
    {frame : Frame}
    (whole : frames = done ++ frame :: rest)
    (tag : StackTag)
    (count : UInt64)
    (node : CallNode) :
    (creditNode tag count (done.length + 1 == frames.length)
      (deepestVirtual? frames == some done.length) node).ticks =
        creditAt tag count (frames.map Frame.key) (done.map Frame.key ++ [frame.key])
          node.ticks := by
  have ends : (done.length + 1 == frames.length) = true ↔
      frames.map Frame.key = done.map Frame.key ++ [frame.key] := by
    rw [beq_iff_eq, whole, List.map_append, List.map_cons, List.append_right_inj,
      List.cons_inj_right, List.map_eq_nil_iff, List.length_append, List.length_cons]
    cases rest with
    | nil => simp
    | cons next rest => simp
  have runs : (deepestVirtual? frames == some done.length) = true ↔
      RunsIn (done.map Frame.key ++ [frame.key]) (frames.map Frame.key) := by
    rw [beq_iff_eq]
    exact deepestVirtual?_eq_some whole
  simp only [creditNode, creditAt, CallNode.ticks, ends, runs]

/-- A path is passed by the rest of a stack, behind what was passed before. -/
def IsAhead (done keys path : List FrameKey) : Prop :=
  done <+: path ∧ path ≠ done ∧ path <+: keys

instance (done keys path : List FrameKey) : Decidable (IsAhead done keys path) :=
  inferInstanceAs (Decidable (_ ∧ _ ∧ _))

theorem not_isAhead_self (done path : List FrameKey) : ¬ IsAhead done done path := by
  rintro ⟨longer, different, passes⟩
  exact different (longer.eq_of_length_le passes.length_le).symm

/-- What is ahead is the next step, or ahead of it. -/
theorem isAhead_iff
    {done keys path : List FrameKey}
    {key : FrameKey}
    (stepPasses : done ++ [key] <+: keys) :
    IsAhead done keys path ↔ path = done ++ [key] ∨ IsAhead (done ++ [key]) keys path := by
  constructor
  · rintro ⟨longer, different, passes⟩
    by_cases step : path = done ++ [key]
    · exact Or.inl step
    · refine Or.inr ⟨?_, step, passes⟩
      apply List.prefix_of_prefix_length_le stepPasses passes
      have notSame : path.length ≠ done.length := fun same =>
        different (longer.eq_of_length same.symm).symm
      have bound := longer.length_le
      rw [List.length_append, List.length_singleton]
      omega
  · have longerStep {path : List FrameKey} (longer : done ++ [key] <+: path) :
        done <+: path ∧ path ≠ done := by
      refine ⟨(List.prefix_append done [key]).trans longer, ?_⟩
      rintro rfl
      have bound := longer.length_le
      rw [List.length_append, List.length_singleton] at bound
      omega
    rintro (rfl | ⟨longer, _, passes⟩)
    · exact ⟨(longerStep List.prefix_rfl).1, (longerStep List.prefix_rfl).2, stepPasses⟩
    · exact ⟨(longerStep longer).1, (longerStep longer).2, passes⟩

/-- Along the rest of a stack, the ticks at the paths of the nodes which are passed
are credited, and no other ones. -/
theorem exists_descent
    {tag : StackTag}
    {count : UInt64}
    {frames done rest : List Frame}
    (whole : frames = done ++ rest)
    (laid : tree.Laid paths)
    {id : Nat}
    (here : paths[id]? = some (done.map Frame.key)) :
    ∃ laterPaths,
      ((rest.zipIdx done.length).foldl (descend tag count frames) (tree, id)).1.Laid laterPaths ∧
      ∀ path,
        ((rest.zipIdx done.length).foldl (descend tag count frames) (tree, id)).1.ticksAt? path =
          if IsAhead (done.map Frame.key) (frames.map Frame.key) path then
            some (creditAt tag count (frames.map Frame.key) path ((tree.ticksAt? path).getD .zero))
          else tree.ticksAt? path := by
  induction rest generalizing tree paths done id with
  | nil =>
      refine ⟨paths, laid, ?_⟩
      intro path
      rw [whole, List.append_nil, if_neg (not_isAhead_self _ _)]
      rfl
  | cons frame rest inductionHypothesis =>
      obtain ⟨steppedPaths, stepped, _, place, ticks⟩ :=
        laid.exists_touch (silent_creditNode _ _ _ _) (ticks_creditNode whole tag count) here frame
      have further : frames = (done ++ [frame]) ++ rest := by
        rw [whole, List.append_cons]
      have moved : (done ++ [frame]).map Frame.key = done.map Frame.key ++ [frame.key] := by simp
      rw [← moved] at place
      obtain ⟨laterPaths, later, laterTicks⟩ := inductionHypothesis further stepped place
      rw [List.length_append, List.length_singleton] at later laterTicks
      rw [List.zipIdx_cons, List.foldl_cons]
      refine ⟨laterPaths, later, ?_⟩
      intro path
      apply (laterTicks path).trans
      rw [ticks path, moved]
      have stepPasses : done.map Frame.key ++ [frame.key] <+: frames.map Frame.key := by
        rw [← moved, further]
        exact (List.prefix_append (done ++ [frame]) rest).map Frame.key
      by_cases step : path = done.map Frame.key ++ [frame.key]
      · rw [if_neg fun deeper => deeper.2.1 step, if_pos step,
          if_pos ((isAhead_iff stepPasses).mpr (Or.inl step)), step]
      · rw [if_neg step]
        by_cases deeper : IsAhead (done.map Frame.key ++ [frame.key]) (frames.map Frame.key) path
        · rw [if_pos deeper, if_pos ((isAhead_iff stepPasses).mpr (Or.inr deeper))]
        · rw [if_neg deeper, if_neg fun ahead =>
            ((isAhead_iff stepPasses).mp ahead).elim step deeper]

/-- A stack changes the ticks at the beginnings of its path only. -/
theorem exists_addTagged
    {tags : List StackTag}
    {tag : StackTag}
    (tagged : tags.getLast? = some tag)
    (laid : tree.Laid paths)
    (frames : List Frame)
    (count : UInt64) :
    ∃ laterPaths,
      (tree.addTagged frames tags count).Laid laterPaths ∧
      ∀ path,
        (tree.addTagged frames tags count).ticksAt? path =
          if path = [] then
            (tree.ticksAt? []).map (NodeTicks.addPassing tag count)
          else if path <+: frames.map Frame.key then
            some (creditAt tag count (frames.map Frame.key) path ((tree.ticksAt? path).getD .zero))
          else tree.ticksAt? path := by
  have silent := silent_creditRoot tag count
  have acts : ∀ node, (creditRoot tag count node).ticks = .addPassing tag count node.ticks :=
    fun _ => rfl
  have rootTicks := laid.ticksAt?_modifyNode silent acts laid.root_eq
  obtain ⟨laterPaths, later, ticks⟩ :=
    exists_descent (List.nil_append frames).symm (laid.modifyNode silent root) laid.root_eq
  rw [addTagged_of_some tagged]
  refine ⟨laterPaths, later, ?_⟩
  intro path
  apply (ticks path).trans
  rw [rootTicks path]
  by_cases top : path = []
  · rw [if_neg fun deeper => deeper.2.1 top, if_pos top, if_pos top]
  · rw [if_neg top, if_neg top]
    by_cases passes : path <+: frames.map Frame.key
    · rw [if_pos ⟨List.nil_prefix, top, passes⟩, if_pos passes]
    · rw [if_neg fun deeper => passes deeper.2.2, if_neg passes]

/-! ## Whole histories -/

/-- Fold stacks into a tree, one after the other. -/
def ofTagged (samples : List TaggedStack) : CallTree :=
  samples.foldl (fun tree stack => tree.addTagged stack.frames stack.tags stack.count) empty

/-- What stacks say about the ticks at a path. -/
def expectedTicks (samples : List TaggedStack) (path : List FrameKey) : NodeTicks where
  cumulative := .gather (TaggedStack.creditsWhere (fun keys => path <+: keys) samples)
  self := .gather (TaggedStack.creditsWhere (fun keys => path ≠ [] ∧ keys = path) samples)
  virtual := .gather (TaggedStack.creditsWhere (RunsIn path) samples)

/-- Whether a tree of stacks has a path. -/
def HasPath (samples : List TaggedStack) (path : List FrameKey) : Prop :=
  path = [] ∨ ∃ stack ∈ samples, stack.tags ≠ [] ∧ path <+: stack.keys

/-- A tree which counts what some stacks say. -/
structure Folds (tree : CallTree) (samples : List TaggedStack) : Prop where
  laid : ∃ paths, tree.Laid paths
  ticks_of_path : ∀ path, HasPath samples path →
    tree.ticksAt? path = some (expectedTicks samples path)
  ticks_of_no_path : ∀ path, ¬ HasPath samples path → tree.ticksAt? path = none

/-- Stacks say nothing about a path which they do not have. -/
theorem expectedTicks_eq_zero
    {samples : List TaggedStack}
    {path : List FrameKey}
    (missing : ¬ HasPath samples path) :
    expectedTicks samples path = .zero := by
  have foreign : ∀ stack ∈ samples, stack.tags ≠ [] → ¬ path <+: stack.keys :=
    fun stack member tagged passes => missing (Or.inr ⟨stack, member, tagged, passes⟩)
  rw [expectedTicks, TaggedStack.creditsWhere_eq_nil foreign,
    TaggedStack.creditsWhere_eq_nil, TaggedStack.creditsWhere_eq_nil]
  · rfl
  · exact fun stack member tagged runs => foreign stack member tagged runs.passes
  · exact fun stack member tagged ends => foreign stack member tagged (ends.2 ▸ List.prefix_rfl)

/-- One more stack credits the ticks at the paths where it passes. -/
theorem expectedTicks_concat
    {stack : TaggedStack}
    {tag : StackTag}
    (tagged : stack.tags.getLast? = some tag)
    (samples : List TaggedStack)
    (path : List FrameKey) :
    expectedTicks (samples ++ [stack]) path =
      if path = [] then (expectedTicks samples path).addPassing tag stack.count
      else if path <+: stack.keys then
        creditAt tag stack.count stack.keys path (expectedTicks samples path)
      else expectedTicks samples path := by
  have credit : stack.credit?.toList = [(tag, stack.count)] := by
    rw [TaggedStack.credit?, tagged]
    rfl
  simp only [expectedTicks, TaggedStack.creditsWhere_append, TaggedStack.creditsWhere_singleton,
    credit]
  by_cases top : path = []
  · subst top
    simp [not_runsIn_nil, NodeTicks.addPassing]
  · by_cases passes : path <+: stack.keys
    · by_cases ends : stack.keys = path
      · subst ends
        by_cases runs : RunsIn stack.keys stack.keys <;> simp [top, runs, creditAt]
      · by_cases runs : RunsIn path stack.keys <;> simp [top, passes, ends, runs, creditAt]
    · have noEnd : stack.keys ≠ path := fun ends => passes (ends ▸ List.prefix_rfl)
      have noRun : ¬ RunsIn path stack.keys := fun runs => passes runs.passes
      simp [top, passes, noEnd, noRun]

theorem folds_empty : empty.Folds [] where
  laid := ⟨[[]], laid_empty⟩
  ticks_of_path path has := by
    have top : path = [] := has.resolve_right fun ⟨stack, member, _⟩ => List.not_mem_nil member
    rw [top]
    rfl
  ticks_of_no_path path missing := by
    rw [laid_empty.ticksAt?_eq_none, List.mem_singleton]
    exact fun top => missing (Or.inl top)

theorem hasPath_concat {samples : List TaggedStack} {stack : TaggedStack} {path : List FrameKey} :
    HasPath (samples ++ [stack]) path ↔
      HasPath samples path ∨ stack.tags ≠ [] ∧ path <+: stack.keys := by
  simp only [HasPath, List.mem_append, List.mem_singleton, or_assoc]
  refine or_congr_right ⟨?_, ?_⟩
  · rintro ⟨other, member | rfl, tagged, passes⟩
    · exact Or.inl ⟨other, member, tagged, passes⟩
    · exact Or.inr ⟨tagged, passes⟩
  · rintro (⟨other, member, tagged, passes⟩ | ⟨tagged, passes⟩)
    · exact ⟨other, Or.inl member, tagged, passes⟩
    · exact ⟨stack, Or.inr rfl, tagged, passes⟩

/-- A stack without tags says nothing. -/
theorem expectedTicks_of_untagged
    {stack : TaggedStack}
    (untagged : stack.tags = [])
    (samples : List TaggedStack)
    (path : List FrameKey) :
    expectedTicks (samples ++ [stack]) path = expectedTicks samples path := by
  have credit : stack.credit?.toList = [] := by
    rw [TaggedStack.credit?, untagged]
    rfl
  simp only [expectedTicks, TaggedStack.creditsWhere_append, TaggedStack.creditsWhere_singleton,
    credit, ite_self, List.append_nil]

/-- A tree counts what a stack without tags says by itself. -/
theorem Folds.concat_untagged
    {samples : List TaggedStack}
    {stack : TaggedStack}
    (folds : tree.Folds samples)
    (untagged : stack.tags = []) :
    tree.Folds (samples ++ [stack]) := by
  have has (path : List FrameKey) :
      HasPath (samples ++ [stack]) path ↔ HasPath samples path := by
    rw [hasPath_concat, or_iff_left fun further => further.1 untagged]
  refine ⟨folds.laid, fun path there => ?_, fun path missing => ?_⟩
  · rw [expectedTicks_of_untagged untagged]
    exact folds.ticks_of_path path ((has path).mp there)
  · exact folds.ticks_of_no_path path fun there => missing ((has path).mpr there)

/-- A tree which counts what some stacks say also counts what one more says, once
it was added. -/
theorem Folds.addTagged
    {samples : List TaggedStack}
    (folds : tree.Folds samples)
    (stack : TaggedStack) :
    (tree.addTagged stack.frames stack.tags stack.count).Folds (samples ++ [stack]) := by
  obtain ⟨paths, laid⟩ := folds.laid
  cases tagged : stack.tags.getLast? with
  | none =>
      have untagged := List.getLast?_eq_none_iff.mp tagged
      have same : tree.addTagged stack.frames stack.tags stack.count = tree := by
        rw [CallTree.addTagged, tagged]
      rw [same]
      exact folds.concat_untagged untagged
  | some tag =>
      have tags : stack.tags ≠ [] := by
        intro untagged
        rw [untagged] at tagged
        cases tagged
      obtain ⟨laterPaths, later, ticks⟩ := exists_addTagged tagged laid stack.frames stack.count
      have before (path : List FrameKey) :
          (tree.ticksAt? path).getD .zero = expectedTicks samples path := by
        by_cases there : HasPath samples path
        · rw [folds.ticks_of_path path there, Option.getD_some]
        · rw [folds.ticks_of_no_path path there, expectedTicks_eq_zero there, Option.getD_none]
      refine ⟨⟨laterPaths, later⟩, fun path there => ?_, fun path missing => ?_⟩
      · rw [ticks path, expectedTicks_concat tagged]
        by_cases top : path = []
        · rw [if_pos top, if_pos top, folds.ticks_of_path [] (Or.inl rfl), top]
          rfl
        · rw [if_neg top, if_neg top, before]
          by_cases passes : path <+: stack.keys
          · rw [if_pos passes]
            exact if_pos passes
          · rw [if_neg passes]
            refine (if_neg passes).trans (folds.ticks_of_path path ?_)
            exact (hasPath_concat.mp there).resolve_right fun further => passes further.2
      · have top : path ≠ [] := fun top => missing (Or.inl top)
        have passes : ¬ path <+: stack.keys := fun passes =>
          missing (hasPath_concat.mpr (Or.inr ⟨tags, passes⟩))
        rw [ticks path, if_neg top]
        refine (if_neg passes).trans (folds.ticks_of_no_path path fun there => ?_)
        exact missing (hasPath_concat.mpr (Or.inl there))

/-- A tree counts what the stacks say which were folded into it. -/
theorem folds_ofTagged (samples : List TaggedStack) : (ofTagged samples).Folds samples := by
  have run (tree : CallTree) (earlier : List TaggedStack) (folds : tree.Folds earlier) :
      (samples.foldl (fun tree stack => tree.addTagged stack.frames stack.tags stack.count)
        tree).Folds (earlier ++ samples) := by
    induction samples generalizing tree earlier with
    | nil => rwa [List.append_nil]
    | cons stack samples inductionHypothesis =>
        rw [List.append_cons]
        exact inductionHypothesis _ _ (folds.addTagged stack)
  exact run empty [] folds_empty

end CallTree
end RuntimeLog
