import Mathlib.Data.List.Perm.Basic
import RuntimeLog.Proofs.CallTree.Stacks

/-!
# Ticks at several paths

The ticks of a stack are at many paths at once.  Of some paths which no stack has
two of, the ticks of every stack are at one of them or at none.
-/

namespace RuntimeLog

/-- What only one member of a list can say is said once. -/
theorem flatMap_ite_of_unique
    {Member Entry : Type}
    {members : List Member}
    (distinct : members.Nodup)
    (speaks : Member → Prop)
    [DecidablePred speaks]
    (unique : ∀ first ∈ members, ∀ second ∈ members,
      speaks first → speaks second → first = second)
    (entries : List Entry) :
    (members.flatMap fun member => if speaks member then entries else []) =
      if ∃ member ∈ members, speaks member then entries else [] := by
  induction members with
  | nil => simp
  | cons member members inductionHypothesis =>
      obtain ⟨foreign, distinctRest⟩ := List.nodup_cons.mp distinct
      have uniqueRest : ∀ first ∈ members, ∀ second ∈ members,
          speaks first → speaks second → first = second := fun first left second right =>
        unique first (List.mem_cons_of_mem _ left) second (List.mem_cons_of_mem _ right)
      rw [List.flatMap_cons, inductionHypothesis distinctRest uniqueRest]
      by_cases own : speaks member
      · have silent : ¬ ∃ other ∈ members, speaks other := by
          rintro ⟨other, there, also⟩
          have same :=
            unique member List.mem_cons_self other (List.mem_cons_of_mem _ there) own also
          exact foreign (same ▸ there)
        rw [if_pos own, if_neg silent, List.append_nil,
          if_pos ⟨member, List.mem_cons_self, own⟩]
      · rw [if_neg own, List.nil_append]
        simp only [List.mem_cons, exists_eq_or_imp, own, false_or]

namespace TaggedStack

variable {property : List FrameKey → List FrameKey → Prop}
variable [∀ start, DecidablePred (property start)]
variable {other : List FrameKey → Prop} [DecidablePred other]

/-- If a stack has at most one of some paths, and has one just if it has some other
property, then its ticks are at those paths once. -/
theorem flatMap_creditsWhere_singleton
    {starts : List (List FrameKey)}
    (distinct : starts.Nodup)
    {stack : TaggedStack}
    (unique : ∀ first ∈ starts, ∀ second ∈ starts,
      property first stack.keys → property second stack.keys → first = second)
    (same : stack.tags ≠ [] →
      ((∃ start ∈ starts, property start stack.keys) ↔ other stack.keys)) :
    (starts.flatMap fun start => creditsWhere (property start) [stack]) =
      creditsWhere other [stack] := by
  simp only [creditsWhere_singleton]
  rw [flatMap_ite_of_unique distinct (fun start => property start stack.keys) unique]
  cases tags : stack.tags with
  | nil =>
      have credit : stack.credit?.toList = [] := by
        unfold credit?
        rw [tags]
        rfl
      rw [credit, ite_self, ite_self]
  | cons tag further =>
      have tagged : stack.tags ≠ [] := by
        rw [tags]
        exact List.cons_ne_nil _ _
      simp only [same tagged]

/-- If each stack has at most one of some paths, and has one just if it has some other
property, then the ticks at those paths together are the ticks of the stacks with the
other property. -/
theorem flatMap_creditsWhere_perm
    {starts : List (List FrameKey)}
    (distinct : starts.Nodup)
    (unique : ∀ keys, ∀ first ∈ starts, ∀ second ∈ starts,
      property first keys → property second keys → first = second)
    {samples : List TaggedStack}
    (same : ∀ stack ∈ samples, stack.tags ≠ [] →
      ((∃ start ∈ starts, property start stack.keys) ↔ other stack.keys)) :
    (starts.flatMap fun start => creditsWhere (property start) samples).Perm
      (creditsWhere other samples) := by
  induction samples with
  | nil =>
      have nothing : (starts.flatMap fun start => creditsWhere (property start) []) = [] :=
        List.flatMap_eq_nil_iff.mpr fun _ _ => rfl
      rw [nothing]
      exact List.Perm.refl _
  | cons stack samples inductionHypothesis =>
      have rest := inductionHypothesis fun stack member =>
        same stack (List.mem_cons_of_mem _ member)
      have first := flatMap_creditsWhere_singleton distinct (unique stack.keys)
        (same stack List.mem_cons_self)
      calc
        (starts.flatMap fun start => creditsWhere (property start) (stack :: samples)).Perm
            (starts.flatMap fun start =>
              creditsWhere (property start) [stack] ++ creditsWhere (property start) samples) := by
          simp only [← creditsWhere_append, List.singleton_append]
          exact List.Perm.refl _
        List.Perm _
            ((starts.flatMap fun start => creditsWhere (property start) [stack]) ++
              starts.flatMap fun start => creditsWhere (property start) samples) :=
          (List.flatMap_append_perm _ _ _).symm
        List.Perm _ (creditsWhere other [stack] ++ creditsWhere other samples) := by
          rw [first]
          exact rest.append_left _
        List.Perm _ (creditsWhere other (stack :: samples)) := by
          rw [← creditsWhere_append, List.singleton_append]

end TaggedStack
end RuntimeLog
