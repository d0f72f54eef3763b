import RuntimeLog.Proofs.CallTree.Stacks

/-!
# Paths of interpreter level functions

Leaving out native frames moves a path which ends with an interpreter level
function to the path of its interpreter level functions.  Of the beginnings of one
stack, no two are moved to the same path, so that no tick is counted twice.
-/

namespace RuntimeLog

/-- Where a path is moved when native frames are left out.  A path which ends with
a native frame is moved nowhere. -/
def movedTo? (path : List FrameKey) : Option (List FrameKey) :=
  if path.getLast?.any FrameKey.isVirtual then some (path.filter FrameKey.isVirtual) else none

variable {path keys : List FrameKey}

theorem movedTo?_concat (path : List FrameKey) (key : FrameKey) :
    movedTo? (path ++ [key]) =
      if key.isVirtual then some (path.filter FrameKey.isVirtual ++ [key]) else none := by
  unfold movedTo?
  rw [List.getLast?_concat, Option.any_some]
  by_cases virtual : key.isVirtual <;> simp [virtual]

theorem movedTo?_ne_nil (path : List FrameKey) : movedTo? path ≠ some [] := by
  rcases List.eq_nil_or_concat path with rfl | ⟨start, key, rfl⟩
  · exact nofun
  · rw [List.concat_eq_append, movedTo?_concat]
    split <;> simp

theorem filter_of_movedTo?
    {start : List FrameKey}
    (moved : movedTo? start = some path) :
    start.filter FrameKey.isVirtual = path := by
  unfold movedTo? at moved
  split at moved
  · exact Option.some.inj moved
  · cases moved

theorem movedTo?_cons
    {rest : List FrameKey}
    (key : FrameKey)
    (moved : movedTo? rest = some path) :
    movedTo? (key :: rest) = some (if key.isVirtual then key :: path else path) := by
  rcases List.eq_nil_or_concat rest with rfl | ⟨start, last, rfl⟩
  · cases moved
  · rw [List.concat_eq_append, movedTo?_concat] at moved
    rw [List.concat_eq_append, ← List.cons_append, movedTo?_concat]
    split at moved
    · rename_i virtual
      cases moved
      rw [if_pos virtual, List.filter_cons]
      split <;> rfl
    · cases moved

/-- A longer path with the same end has more interpreter level functions. -/
theorem eq_of_movedTo?_of_shorter
    {longer : List FrameKey}
    (further : path <+: longer)
    (same : movedTo? path = movedTo? longer)
    (moved : (movedTo? longer).isSome) :
    path = longer := by
  obtain ⟨rest, rfl⟩ := further
  rcases List.eq_nil_or_concat rest with rfl | ⟨start, key, rfl⟩
  · exact (List.append_nil path).symm
  · rw [List.concat_eq_append, ← List.append_assoc, movedTo?_concat] at same moved
    split at same
    · unfold movedTo? at same
      split at same
      · have lengths := congrArg List.length (Option.some.inj same)
        rw [List.filter_append, List.length_append, List.length_append] at lengths
        simp only [List.length_singleton] at lengths
        omega
      · cases same
    · simp_all

/-- No two beginnings of a stack are moved to the same path. -/
theorem eq_of_movedTo?
    {first second : List FrameKey}
    (firstPasses : first <+: keys)
    (secondPasses : second <+: keys)
    (firstMoved : movedTo? first = some path)
    (secondMoved : movedTo? second = some path) :
    first = second := by
  have same := firstMoved.trans secondMoved.symm
  rcases List.prefix_or_prefix_of_prefix firstPasses secondPasses with shorter | shorter
  · exact eq_of_movedTo?_of_shorter shorter same (by rw [secondMoved]; rfl)
  · exact (eq_of_movedTo?_of_shorter shorter same.symm (by rw [firstMoved]; rfl)).symm

/-- Every path of interpreter level functions of a stack is the one to which some
beginning of the stack is moved. -/
theorem exists_movedTo?
    (below : path ≠ [])
    (passes : path <+: keys.filter FrameKey.isVirtual) :
    ∃ start, start <+: keys ∧ movedTo? start = some path := by
  induction keys generalizing path with
  | nil => exact absurd (List.prefix_nil.mp passes) below
  | cons key keys inductionHypothesis =>
      by_cases virtual : key.isVirtual
      · rw [List.filter_cons_of_pos virtual] at passes
        cases path with
        | nil => exact absurd rfl below
        | cons first path =>
            obtain ⟨rfl, onward⟩ := List.cons_prefix_cons.mp passes
            by_cases last : path = []
            · refine ⟨[first], ?_, ?_⟩
              · exact List.cons_prefix_cons.mpr ⟨rfl, List.nil_prefix⟩
              · rw [last]
                simp [movedTo?, virtual]
            · obtain ⟨start, begins, moved⟩ := inductionHypothesis last onward
              refine ⟨first :: start, List.cons_prefix_cons.mpr ⟨rfl, begins⟩, ?_⟩
              rw [movedTo?_cons first moved, if_pos virtual]
      · rw [List.filter_cons_of_neg virtual] at passes
        obtain ⟨start, begins, moved⟩ := inductionHypothesis below passes
        refine ⟨key :: start, List.cons_prefix_cons.mpr ⟨rfl, begins⟩, ?_⟩
        rw [movedTo?_cons key moved, if_neg virtual]

/-- A stack whose innermost interpreter level function is at the end of a path is
moved to where that path is. -/
theorem runsIn_iff_of_movedTo?
    {start : List FrameKey}
    (moved : movedTo? start = some path) :
    RunsIn start keys ↔ start <+: keys ∧ keys.filter FrameKey.isVirtual = path := by
  unfold movedTo? at moved
  split at moved
  · rename_i virtual
    have path_eq := Option.some.inj moved
    have rest_iff (rest : List FrameKey) :
        rest.all (fun key => !key.isVirtual) = true ↔
          (start ++ rest).filter FrameKey.isVirtual = path := by
      rw [List.filter_append, path_eq, List.append_right_eq_self, List.filter_eq_nil_iff,
        List.all_eq_true]
      simp
    constructor
    · intro runs
      obtain ⟨rest, rfl⟩ := runs.passes
      have innermost := runs.innermost
      rw [List.drop_left] at innermost
      exact ⟨runs.passes, (rest_iff rest).mp innermost⟩
    · rintro ⟨⟨rest, rfl⟩, same⟩
      refine ⟨List.prefix_append _ _, virtual, ?_⟩
      rw [List.drop_left]
      exact (rest_iff rest).mpr same
  · cases moved

/-! ## Ticks of moved paths -/

namespace TaggedStack

variable {other : List FrameKey → Prop} [DecidablePred other]

/-- A stack without its native frames.  Its tags stay what they are. -/
def virtualOnly (stack : TaggedStack) : TaggedStack :=
  { stack with frames := stack.frames.filter Frame.isVirtual }

theorem keys_virtualOnly (stack : TaggedStack) :
    stack.virtualOnly.keys = stack.keys.filter FrameKey.isVirtual := by
  rw [keys, keys, List.filter_map]
  rfl

/-- What is asked of stacks without their native frames can be asked of the functions
which are left. -/
theorem creditsWhere_map_virtualOnly (samples : List TaggedStack) :
    creditsWhere other (samples.map virtualOnly) =
      creditsWhere (fun keys => other (keys.filter FrameKey.isVirtual)) samples := by
  unfold creditsWhere
  rw [List.filter_map, List.filterMap_map]
  simp only [Function.comp_def, keys_virtualOnly]
  rfl

theorem creditsWhere_nil_prefix_map (samples : List TaggedStack) :
    creditsWhere (fun keys => [] <+: keys) (samples.map virtualOnly) =
      creditsWhere (fun keys => [] <+: keys) samples := by
  rw [creditsWhere_map_virtualOnly]
  simp only [List.nil_prefix]

end TaggedStack
end RuntimeLog
