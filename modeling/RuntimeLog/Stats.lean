import RuntimeLog.CallTree.Virtual

/-!
# Statistics

The samples of a profile, resolved and tagged, and what is counted over all of
them.
-/

namespace RuntimeLog

/-- A sample whose stack was resolved and tagged. -/
structure ResolvedSample where
  /-- The stack, root first. -/
  frames : List Frame
  /-- A tag for every frame. -/
  tags : List StackTag
  count : UInt64
  thread : UInt64
  memory : Option UInt64
  compiling : Bool
deriving DecidableEq, Repr

namespace ResolvedSample

/-- Resolve and tag a sample. -/
def ofSample (space : AddressSpace) (sample : Sample) : ResolvedSample :=
  let frames := space.resolveStack sample
  { frames
    tags := space.tagStack frames
    count := sample.count
    thread := sample.thread
    memory := sample.memory
    compiling := sample.compiling }

/-- The tag of the innermost frame. -/
def topmostTag? (sample : ResolvedSample) : Option StackTag :=
  sample.tags.getLast?

end ResolvedSample

/-- The resolved samples of a profile. -/
structure Stats where
  profile : Profile
  space : AddressSpace
  samples : List ResolvedSample

namespace Stats

/-- Resolve all samples of a profile. -/
def ofProfile (profile : Profile) (space : AddressSpace) : Stats :=
  { profile, space, samples := profile.samples.toList.map (.ofSample space) }

/-- The ticks of all samples. -/
def totalTicks (stats : Stats) : UInt64 :=
  Ticks.sum (stats.samples.map ResolvedSample.count)

/-- The ticks of samples taken during compilation. -/
def compilingTicks (stats : Stats) : UInt64 :=
  Ticks.sum ((stats.samples.filter ResolvedSample.compiling).map ResolvedSample.count)

/-- The ticks by the tags of the innermost frames. -/
def tagTotals (stats : Stats) : TagCounts :=
  stats.samples.foldl
    (fun totals sample =>
      match sample.topmostTag? with
      | some tag => totals.add tag sample.count
      | none => totals) ∅

/-- The threads which were sampled. -/
def threads (stats : Stats) : Std.ExtTreeSet UInt64 compare :=
  stats.samples.foldl (fun threads sample => threads.insert sample.thread) ∅

/-- The stacks of all samples as a tree. -/
def callTree (stats : Stats) : CallTree :=
  stats.samples.foldl
    (fun tree sample => tree.addTagged sample.frames sample.tags sample.count) .empty

/-- The tree of the interpreter level functions. -/
def virtualCallTree (stats : Stats) : CallTree :=
  stats.callTree.virtualOnly

/-- The ticks of the samples in which a function appears, by name.  It counts
once per sample, however often it appears there. -/
def functionTicks (stats : Stats) : Std.ExtTreeMap String UInt64 compare :=
  stats.samples.foldl
    (fun ticks sample =>
      let names : Std.ExtTreeSet String compare :=
        sample.frames.foldl (fun names frame => names.insert frame.name) ∅
      names.toList.foldl
        (fun ticks name => ticks.insert name (Ticks.add (ticks.getD name 0) sample.count)) ticks)
    ∅

/-- The functions with the most ticks; those with equally many are in the order
of their names. -/
def topFunctions (stats : Stats) (limit : Nat) : List (String × UInt64) :=
  (stats.functionTicks.toList.mergeSort fun left right => right.2 ≤ left.2).take limit

end Stats
end RuntimeLog
