import RuntimeLog.CallTree.Basic
import RuntimeLog.Proofs.Stack.TagCounts

/-!
# Stacks and their paths

What a stack has to do with a path: it may pass there, end there, or have its
innermost interpreter level function there.
-/

namespace RuntimeLog

/-- A stack whose frames are tagged. -/
structure TaggedStack where
  /-- The root comes first. -/
  frames : List Frame
  tags : List StackTag
  count : UInt64

namespace TaggedStack

/-- The functions of a stack. -/
def keys (stack : TaggedStack) : List FrameKey :=
  stack.frames.map Frame.key

/-- The ticks of a stack, under the tag of its innermost frame. -/
def credit? (stack : TaggedStack) : Option (StackTag × UInt64) :=
  stack.tags.getLast?.map fun tag => (tag, stack.count)

/-- The ticks of the stacks whose functions have some property. -/
def creditsWhere
    (property : List FrameKey → Prop)
    [DecidablePred property]
    (samples : List TaggedStack) : List (StackTag × UInt64) :=
  (samples.filter fun stack => property stack.keys).filterMap credit?

variable {property other : List FrameKey → Prop} [DecidablePred property] [DecidablePred other]
variable {samples : List TaggedStack}

theorem creditsWhere_append (left right : List TaggedStack) :
    creditsWhere property (left ++ right) =
      creditsWhere property left ++ creditsWhere property right := by
  simp [creditsWhere]

theorem creditsWhere_singleton (stack : TaggedStack) :
    creditsWhere property [stack] = if property stack.keys then stack.credit?.toList else [] := by
  unfold creditsWhere
  rw [List.filter_cons, List.filter_nil]
  by_cases holds : property stack.keys
  · rw [if_pos holds, if_pos (decide_eq_true holds)]
    cases entry : stack.credit? <;> simp [entry]
  · rw [if_neg holds, if_neg (by simpa using holds)]
    rfl

theorem creditsWhere_eq_nil
    (foreign : ∀ stack ∈ samples, stack.tags ≠ [] → ¬ property stack.keys) :
    creditsWhere property samples = [] := by
  unfold creditsWhere
  rw [List.filterMap_eq_nil_iff]
  intro stack member
  obtain ⟨member, holds⟩ := List.mem_filter.mp member
  have untagged : stack.tags = [] := Classical.byContradiction fun tagged =>
    foreign stack member tagged (of_decide_eq_true holds)
  unfold credit?
  rw [untagged]
  rfl

/-- There are no ticks just if no stack with tags has the property. -/
theorem creditsWhere_eq_nil_iff :
    creditsWhere property samples = [] ↔
      ∀ stack ∈ samples, stack.tags ≠ [] → ¬ property stack.keys := by
  refine ⟨fun nothing stack member tagged holds => ?_, creditsWhere_eq_nil⟩
  unfold creditsWhere at nothing
  rw [List.filterMap_eq_nil_iff] at nothing
  have silent := nothing stack (List.mem_filter.mpr ⟨member, decide_eq_true holds⟩)
  rw [credit?, Option.map_eq_none_iff, List.getLast?_eq_none_iff] at silent
  exact tagged silent

/-- Stacks with a stronger property are some of those with a weaker one. -/
theorem creditsWhere_sublist
    (weaker : ∀ keys, property keys → other keys)
    (samples : List TaggedStack) :
    (creditsWhere property samples).Sublist (creditsWhere other samples) := by
  have twice : samples.filter (fun stack => property stack.keys) =
      (samples.filter fun stack => other stack.keys).filter fun stack => property stack.keys := by
    rw [List.filter_filter]
    apply List.filter_congr
    intro stack _
    by_cases holds : property stack.keys <;> simp [holds, weaker]
  unfold creditsWhere
  rw [twice]
  exact (List.filter_sublist).filterMap _

theorem creditsWhere_perm {left right : List TaggedStack} (same : left.Perm right) :
    (creditsWhere property left).Perm (creditsWhere property right) :=
  (same.filter _).filterMap _

end TaggedStack

/-- The innermost interpreter level function of a stack is at the end of a path. -/
structure RunsIn (path keys : List FrameKey) : Prop where
  passes : path <+: keys
  isVirtual : path.getLast?.any FrameKey.isVirtual = true
  innermost : (keys.drop path.length).all (fun key => !key.isVirtual) = true

instance (path keys : List FrameKey) : Decidable (RunsIn path keys) :=
  decidable_of_iff
    (path <+: keys ∧ path.getLast?.any FrameKey.isVirtual = true ∧
      (keys.drop path.length).all (fun key => !key.isVirtual) = true)
    ⟨fun ⟨passes, isVirtual, innermost⟩ => ⟨passes, isVirtual, innermost⟩,
      fun ⟨passes, isVirtual, innermost⟩ => ⟨passes, isVirtual, innermost⟩⟩

theorem not_runsIn_nil (keys : List FrameKey) : ¬ RunsIn [] keys := by
  intro runs
  cases runs.isVirtual

theorem runsIn_concat_iff {path rest : List FrameKey} {key : FrameKey} :
    RunsIn (path ++ [key]) (path ++ key :: rest) ↔
      key.isVirtual = true ∧ rest.all (fun key => !key.isVirtual) = true := by
  have whole : path ++ key :: rest = path ++ [key] ++ rest := List.append_cons path key rest
  have behind : (path ++ key :: rest).drop (path ++ [key]).length = rest := by
    rw [whole, List.drop_left]
  constructor
  · intro runs
    have isVirtual := runs.isVirtual
    have innermost := runs.innermost
    rw [List.getLast?_concat, Option.any_some] at isVirtual
    rw [behind] at innermost
    exact ⟨isVirtual, innermost⟩
  · rintro ⟨isVirtual, innermost⟩
    refine ⟨?_, ?_, ?_⟩
    · rw [whole]
      exact List.prefix_append _ _
    · rw [List.getLast?_concat, Option.any_some]
      exact isVirtual
    · rw [behind]
      exact innermost

namespace CallTree

/-- The position of the innermost interpreter level function, where the frames are
numbered from some number on. -/
def deepestFrom (number : Nat) (frames : List Frame) : Option Nat :=
  ((frames.zipIdx number).filter fun entry => entry.1.isVirtual).getLast?.map Prod.snd

theorem deepestFrom_cons (number : Nat) (frame : Frame) (frames : List Frame) :
    deepestFrom number (frame :: frames) =
      if frame.isVirtual then some ((deepestFrom (number + 1) frames).getD number)
      else deepestFrom (number + 1) frames := by
  rw [deepestFrom, List.zipIdx_cons, List.filter_cons]
  by_cases virtual : frame.isVirtual
  · rw [if_pos virtual, if_pos virtual, List.getLast?_cons, deepestFrom]
    cases (List.filter (fun entry => entry.1.isVirtual) (frames.zipIdx (number + 1))).getLast? <;>
      rfl
  · rw [if_neg virtual, if_neg virtual, deepestFrom]

theorem le_of_deepestFrom {number position : Nat} {frames : List Frame}
    (found : deepestFrom number frames = some position) :
    number ≤ position := by
  induction frames generalizing number position with
  | nil => cases found
  | cons frame frames inductionHypothesis =>
      rw [deepestFrom_cons] at found
      cases below : deepestFrom (number + 1) frames with
      | none =>
          rw [below] at found
          split at found
          · cases found
            exact Nat.le_refl _
          · cases found
      | some later =>
          have bound := inductionHypothesis below
          rw [below, Option.getD_some] at found
          split at found <;> cases found <;> omega

theorem deepestFrom_eq_none {number : Nat} {frames : List Frame} :
    deepestFrom number frames = none ↔
      (frames.map Frame.key).all (fun key => !key.isVirtual) = true := by
  induction frames generalizing number with
  | nil => exact ⟨fun _ => rfl, fun _ => rfl⟩
  | cons frame frames inductionHypothesis =>
      rw [deepestFrom_cons, List.map_cons, List.all_cons]
      by_cases virtual : frame.isVirtual
      · simp [virtual, Frame.key]
      · rw [if_neg virtual, inductionHypothesis]
        simp [virtual, Frame.key]

theorem deepestFrom_eq_some {number position : Nat} {frames : List Frame} :
    deepestFrom number frames = some (number + position) ↔
      (frames.map Frame.key)[position]?.any FrameKey.isVirtual = true ∧
        ((frames.map Frame.key).drop (position + 1)).all (fun key => !key.isVirtual) = true := by
  induction frames generalizing number position with
  | nil => exact ⟨nofun, nofun⟩
  | cons frame frames inductionHypothesis =>
      rw [deepestFrom_cons, List.map_cons]
      cases position with
      | zero =>
          rw [List.getElem?_cons_zero, Option.any_some, List.drop_succ_cons, List.drop_zero,
            ← @deepestFrom_eq_none (number + 1), Nat.add_zero]
          cases below : deepestFrom (number + 1) frames with
          | none => by_cases virtual : frame.isVirtual <;> simp [virtual, Frame.key]
          | some later =>
              have bound := le_of_deepestFrom below
              by_cases virtual : frame.isVirtual
              · simp only [virtual, if_true, Option.getD_some, Option.some.injEq, reduceCtorEq,
                  and_false, iff_false]
                omega
              · simp only [virtual, Bool.false_eq_true, if_false, Option.some.injEq, reduceCtorEq,
                  and_false, iff_false]
                omega
      | succ position =>
          rw [List.getElem?_cons_succ, List.drop_succ_cons,
            ← @inductionHypothesis (number + 1) position, Nat.add_right_comm number 1 position]
          by_cases virtual : frame.isVirtual
          · rw [if_pos virtual, Option.some.injEq]
            cases below : deepestFrom (number + 1) frames with
            | none =>
                simp only [Option.getD_none, reduceCtorEq, iff_false]
                omega
            | some later => rw [Option.getD_some, Option.some.injEq, Nat.add_assoc]
          · rw [if_neg virtual, Nat.add_assoc]

/-- The innermost interpreter level function is where the path of the stack up to
it ends. -/
theorem deepestVirtual?_eq_some {frames done rest : List Frame} {frame : Frame}
    (whole : frames = done ++ frame :: rest) :
    deepestVirtual? frames = some done.length ↔
      RunsIn (done.map Frame.key ++ [frame.key]) (frames.map Frame.key) := by
  have here : (frames.map Frame.key)[done.length]? = some frame.key := by
    simp [whole]
  have behind : (frames.map Frame.key).drop (done.length + 1) = rest.map Frame.key := by
    rw [whole, List.append_cons done frame rest, List.map_append]
    exact List.drop_left' (by simp)
  have position := @deepestFrom_eq_some 0 done.length frames
  rw [Nat.zero_add, here, behind, Option.any_some] at position
  rw [whole, List.map_append, List.map_cons, runsIn_concat_iff, ← whole]
  exact position

end CallTree
end RuntimeLog
