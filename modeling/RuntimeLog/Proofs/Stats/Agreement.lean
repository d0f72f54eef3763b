import RuntimeLog.Proofs.CallTree.NodeSums
import RuntimeLog.Proofs.Stats.Functions

/-!
# Agreement of statistics

The ticks of samples are counted per tag, in a tree and per function.  All of these
counts say the same: they are sums over the same samples, cut at the greatest count.
-/

namespace RuntimeLog

open TaggedStack (creditsWhere)

namespace ResolvedSample

/-- The stack of a sample with its tags. -/
def tagged (sample : ResolvedSample) : TaggedStack :=
  { frames := sample.frames, tags := sample.tags, count := sample.count }

variable {sample : ResolvedSample}

theorem credit?_tagged (sample : ResolvedSample) :
    sample.tagged.credit? = sample.topmostTag?.map fun tag => (tag, sample.count) := rfl

theorem calls_iff {name : String} :
    sample.Calls name ↔ ∃ key ∈ sample.tagged.keys, key.name = name := by
  constructor
  · rintro ⟨frame, member, named⟩
    exact ⟨frame.key, List.mem_map.mpr ⟨frame, member, rfl⟩, named⟩
  · rintro ⟨key, member, named⟩
    obtain ⟨frame, has, rfl⟩ := List.mem_map.mp member
    exact ⟨frame, has, named⟩

/-- The frames of a sample which was resolved have tags. -/
theorem tags_ofSample_eq_nil {space : AddressSpace} {taken : Sample} :
    (ofSample space taken).tags = [] ↔ (ofSample space taken).frames = [] :=
  SampledStack.tagStack_eq_nil

end ResolvedSample

namespace Stats

variable {stats : Stats} {samples : List ResolvedSample}

/-- Statistics whose counts say the same. -/
structure Agrees (stats : Stats) : Prop where
  /-- The root of the tree has the ticks per tag. -/
  root : (stats.callTree.node? CallTree.root).map CallNode.cumulativeTicks = some stats.tagTotals
  /-- The self ticks of all nodes are the ticks per tag. -/
  self : ∀ tag,
    Ticks.sum (stats.callTree.nodes.toList.map fun node => node.selfTicks.getD tag 0) =
      stats.tagTotals.getD tag 0
  /-- The top functions are the first ones of all functions, in order, with the ticks
  which passed their topmost nodes. -/
  top : ∃ all : List (String × UInt64),
    (∀ limit, stats.topFunctions limit = all.take limit) ∧
    all.Pairwise Precedes ∧
    ∀ name count, (name, count) ∈ all ↔
      (∃ sample ∈ stats.samples, sample.Calls name) ∧
        count = stats.callTree.topmostTicks name
  /-- Any other listing of the functions of all samples has the same ones on top. -/
  any_order : ∀ (listed : List (List String × UInt64)) (ranked : List (String × UInt64)),
    Lists listed stats.samples → ranked.Perm (countListed listed).toList →
      ranked.Pairwise Precedes → ∀ limit, ranked.take limit = stats.topFunctions limit

/-- A tree of samples folds their stacks. -/
theorem folds_callTree (stats : Stats) :
    stats.callTree.Folds (stats.samples.map ResolvedSample.tagged) := by
  have same : stats.callTree = CallTree.ofTagged (stats.samples.map ResolvedSample.tagged) := by
    unfold callTree CallTree.ofTagged
    rw [List.foldl_map]
    rfl
  rw [same]
  exact CallTree.folds_ofTagged _

/-- The ticks per tag are gathered from the stacks. -/
theorem tagTotals_eq (stats : Stats) :
    stats.tagTotals =
      .gather ((stats.samples.map ResolvedSample.tagged).filterMap TaggedStack.credit?) := by
  unfold tagTotals TagCounts.gather
  rw [List.foldl_filterMap, List.foldl_map]
  congr 1
  funext totals sample
  rw [sample.credit?_tagged]
  cases sample.topmostTag? <;> rfl

/-- The ticks of the stacks with a function are the counts of the samples with it. -/
theorem map_creditsWhere
    (resolved : ∀ sample ∈ samples, sample.tags = [] ↔ sample.frames = [])
    (name : String) :
    (creditsWhere (fun keys => ∃ key ∈ keys, key.name = name)
      (samples.map ResolvedSample.tagged)).map Prod.snd = countsOf samples name := by
  induction samples with
  | nil => rfl
  | cons sample samples inductionHypothesis =>
      have rest := inductionHypothesis fun other member =>
        resolved other (List.mem_cons_of_mem _ member)
      rw [List.map_cons, ← List.singleton_append, TaggedStack.creditsWhere_append, List.map_append,
        rest, TaggedStack.creditsWhere_singleton]
      by_cases calls : sample.Calls name
      · have tagged : sample.tags ≠ [] := by
          intro untagged
          obtain ⟨frame, member, _⟩ := calls
          rw [(resolved sample List.mem_cons_self).mp untagged] at member
          cases member
        rw [if_pos (ResolvedSample.calls_iff.mp calls), sample.credit?_tagged,
          ResolvedSample.topmostTag?, List.getLast?_eq_some_getLast tagged]
        simp [countsOf, calls]
      · rw [if_neg (mt ResolvedSample.calls_iff.mpr calls)]
        simp [countsOf, calls]

/-- The statistics of a profile agree with each other. -/
theorem agrees_ofProfile (profile : Profile) (space : AddressSpace) :
    (ofProfile profile space).Agrees := by
  have resolved : ∀ sample ∈ (ofProfile profile space).samples,
      sample.tags = [] ↔ sample.frames = [] := by
    intro sample member
    obtain ⟨taken, _, rfl⟩ := List.mem_map.mp member
    exact ResolvedSample.tags_ofSample_eq_nil
  have folds := (ofProfile profile space).folds_callTree
  refine ⟨?_, fun tag => ?_, ⟨_, topFunctions_eq _, pairwise_ranking _, fun name count => ?_⟩,
    fun listed ranked lists same ordered limit => ?_⟩
  · obtain ⟨paths, laid⟩ := folds.laid
    have ticks := (laid.ticksAt?_eq laid.root_eq).symm.trans (folds.ticks_of_path [] (Or.inl rfl))
    have every (samples : List TaggedStack) :
        creditsWhere (fun keys => [] <+: keys) samples = samples.filterMap TaggedStack.credit? := by
      simp [creditsWhere]
    obtain ⟨node, known, credited⟩ := Option.map_eq_some_iff.mp ticks
    have cumulative := congrArg NodeTicks.cumulative credited
    rw [known, tagTotals_eq, ← every]
    exact congrArg some cumulative
  · rw [tagTotals_eq]
    refine folds.sum_selfTicks ?_ tag
    intro stack member tagged frameless
    obtain ⟨sample, here, rfl⟩ := List.mem_map.mp member
    exact tagged ((resolved sample here).mpr (List.map_eq_nil_iff.mp frameless))
  · rw [(perm_ranking _).mem_iff, mem_toList_functionTicks, folds.topmostTicks_eq,
      map_creditsWhere resolved]
  · rw [lists.eq_ranking same ordered, topFunctions_eq]

end Stats
end RuntimeLog
