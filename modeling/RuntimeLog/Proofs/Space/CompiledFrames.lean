import RuntimeLog.Proofs.Space.VirtualNames
import RuntimeLog.Proofs.Stack.Tagging
import RuntimeLog.Stats

/-!
# Compiled frames

A frame which was sampled in compiled code is compiled code where nothing is known
about its address.  Where another library is asked about the address and contains
it, the frame belongs to this library instead.
-/

namespace RuntimeLog

namespace AddressSpace

variable {libraries : List Library} {library : Library} {number : Nat} {address : UInt64}

/-! ## The library of compiled traces -/

/-- Numbered libraries are in the order of their numbers and of their starts. -/
theorem pairwise_numbered (libraries : List Library) :
    (ofLibraries libraries).numbered.Pairwise fun left right =>
      left.2 < right.2 ∧ left.1.start ≤ right.1.start := by
  have sorted : (ofLibraries libraries).libraries.Pairwise
      fun left right => left.start ≤ right.start := pairwise_mergeSort _
  unfold numbered
  apply List.pairwise_iff_getElem.mpr
  intro first second firstInside secondInside before
  rw [List.getElem_zipIdx, List.getElem_zipIdx]
  refine ⟨by omega, ?_⟩
  exact List.pairwise_iff_getElem.mp sorted first second _ _ before

/-- A number is the one of a single library. -/
theorem eq_of_mem_numbered
    {space : AddressSpace}
    {other : Library}
    (member : (library, number) ∈ space.numbered)
    (otherMember : (other, number) ∈ space.numbered) :
    library = other :=
  Option.some.inj ((mem_numbered_iff.mp member).symm.trans (mem_numbered_iff.mp otherMember))

/-- Where libraries of compiled traces have ranges, the library which is asked about
an address is the one which counts if it is of this kind and no other one starts
above the address. -/
theorem eq_jitNumber_iff
    (ranged : ∀ library ∈ complete libraries, library.kind = .jit → library.exact = false)
    (asked : (ofLibraries libraries).rangedBelow? address = some (library, number)) :
    number = (ofLibraries libraries).jitNumber ↔
      library.kind = .jit ∧
        ∀ other ∈ complete libraries, other.kind = .jit → other.start ≤ address := by
  obtain ⟨last, compiled⟩ := exists_getLast?_jit libraries
  obtain ⟨lastNumbered, lastKind⟩ := List.mem_filter.mp (List.mem_of_getLast? compiled)
  have ordered := pairwise_numbered libraries
  have askedOrdered := (ordered.filter fun entry => !entry.1.exact).sublist
    (List.takeWhile_sublist fun entry => entry.1.start ≤ address)
  have taken := List.mem_of_getLast? asked
  have within : library.start ≤ address := by
    have all := List.all_eq_true.mp List.all_takeWhile _ taken
    exact of_decide_eq_true all
  have numbered := List.mem_of_mem_filter ((List.takeWhile_sublist _).subset taken)
  constructor
  · rintro rfl
    cases eq_of_mem_numbered numbered lastNumbered
    refine ⟨of_decide_eq_true lastKind, fun other member kind => ?_⟩
    obtain ⟨otherNumber, otherNumbered⟩ := exists_mem_numbered_iff.mpr member
    rcases eq_or_before_of_getLast? (ordered.filter _) compiled
      (List.mem_filter.mpr ⟨otherNumbered, decide_eq_true kind⟩) with same | before
    · cases same
      exact within
    · exact UInt64.le_trans before.2 within
  · rintro ⟨kind, below⟩
    have lastKind : last.kind = .jit := of_decide_eq_true lastKind
    have lastMember := exists_mem_numbered_iff.mp ⟨_, lastNumbered⟩
    have lastRanged : (last, (ofLibraries libraries).jitNumber) ∈ (ofLibraries libraries).ranged :=
      List.mem_filter.mpr ⟨lastNumbered, by simp [ranged last lastMember lastKind]⟩
    have sorted : (ofLibraries libraries).ranged.Pairwise
        fun left right => left.1.start ≤ right.1.start :=
      (ordered.filter _).imp And.right
    have lastTaken := mem_takeWhile_of_le sorted lastRanged (below last lastMember lastKind)
    -- neither of both libraries comes before the other one
    rcases eq_or_before_of_getLast? askedOrdered asked lastTaken with same | lastBefore
    · exact (congrArg Prod.snd same).symm
    · rcases eq_or_before_of_getLast? (ordered.filter _) compiled
        (List.mem_filter.mpr ⟨numbered, decide_eq_true kind⟩) with same | before
      · exact congrArg Prod.snd same
      · exact absurd lastBefore.1 (Nat.lt_asymm before.1)

/-- The frame of an address in a library is in this library. -/
theorem library_frameIn (library : Library) (number : Nat) (address : UInt64) :
    (frameIn library number address).library = some number := by
  unfold frameIn
  split <;> rfl

/-- An address which stands for no name is in no other library than the one of compiled
traces if the nearest library does not contain it, or is this one. -/
theorem forall_library_lookup_iff
    (ranged : ∀ library ∈ complete libraries, library.kind = .jit → library.exact = false)
    (unnamed : (ofLibraries libraries).lookupExact? address = none) :
    (∀ number, ((ofLibraries libraries).lookup address).library = some number →
      number = (ofLibraries libraries).jitNumber) ↔
        ∀ library,
          nearest? Library.start address
              ((complete libraries).filter fun library => !library.exact) = some library →
            library.contains address →
              library.kind = .jit ∧
                ∀ other ∈ complete libraries, other.kind = .jit → other.start ≤ address := by
  rw [← rangedBelow?_ofLibraries]
  unfold lookup
  rw [unnamed]
  cases asked : (ofLibraries libraries).rangedBelow? address with
  | none => simp [Frame.unknown]
  | some entry =>
      obtain ⟨library, number⟩ := entry
      dsimp only
      by_cases inside : library.contains address
      · rw [if_pos inside, library_frameIn]
        simp [inside, eq_jitNumber_iff ranged asked]
      · rw [if_neg inside]
        simp [Frame.unknown, inside]

/-! ## Compiled frames -/

/-- A frame which was sampled in compiled code is compiled code unless its address is
in another library. -/
theorem isJit_resolveFrame_of_jitted
    {space : AddressSpace}
    {raw : RawFrame}
    (jitted : raw.kind = .jitted) :
    space.isJit (space.resolveFrame raw) ↔
      ∀ number, (space.lookup raw.address).library = some number → number = space.jitNumber := by
  unfold isJit resolveFrame
  rw [jitted, beq_iff_eq]
  cases found : (space.lookup raw.address).library with
  | none => simp [found]
  | some number => simp [found]

/-- What it takes for a frame which was sampled in compiled code to count as such: its
address has no virtual name, and if the library which is asked about the address
contains it, this is the last library of compiled traces. -/
structure LeftToTraces
    (profile : Profile)
    (libraries : List Library)
    (forest : Option Forest)
    (address : UInt64) : Prop where
  undeclared : profile.virtualNames[address]? = none
  asked : ∀ library,
    nearest? Library.start address
        ((complete (declared profile libraries forest)).filter fun library => !library.exact) =
      some library →
    library.contains address →
      library.kind = .jit ∧
        ∀ other ∈ complete (declared profile libraries forest),
          other.kind = .jit → other.start ≤ address

section Compiled

variable {profile : Profile} {forest : Option Forest} {raw : RawFrame}

/-- An address which stands for a name has a virtual one, and is in no library of
compiled traces. -/
theorem ne_jitNumber_of_lookupExact?
    (ranged : ∀ library ∈ libraries, library.exact = false)
    {frame : Frame}
    (exactly : (ofProfile profile libraries forest).lookupExact? address = some frame) :
    profile.virtualNames[address]? ≠ none ∧
      ∃ number, frame.library = some number ∧
        number ≠ (ofProfile profile libraries forest).jitNumber := by
  obtain ⟨⟨library, number⟩, asked, same⟩ := List.exists_of_findSome?_eq_some exactly
  obtain ⟨symbol, named, rfl⟩ := Option.map_eq_some_iff.mp same
  obtain ⟨numbered, exact⟩ := List.mem_filter.mp asked
  have listed := exists_mem_numbered_iff.mp ⟨number, numbered⟩
  rcases mem_declared_of_exact listed exact with given | virtual
  · rw [ranged library given] at exact
    cases exact
  · constructor
    · intro undeclared
      rw [exactSymbol?_of_ofVirtualNames? virtual, undeclared] at named
      cases named
    · refine ⟨number, rfl, ?_⟩
      rintro rfl
      obtain ⟨last, compiled⟩ := exists_getLast?_jit (declared profile libraries forest)
      obtain ⟨numbered, kind⟩ := List.mem_filter.mp (List.mem_of_getLast? compiled)
      cases eq_of_mem_numbered (List.mem_of_mem_filter asked) numbered
      exact absurd ((kind_of_ofVirtualNames? virtual).1.symm.trans (of_decide_eq_true kind))
        (by simp)

/-- A frame which was sampled in compiled code counts as such if its address is left
to the traces. -/
theorem isJit_resolveFrame_iff
    (ranged : ∀ library ∈ libraries, library.exact = false)
    (jitted : raw.kind = .jitted) :
    (ofProfile profile libraries forest).isJit
        ((ofProfile profile libraries forest).resolveFrame raw) ↔
      LeftToTraces profile libraries forest raw.address := by
  rw [isJit_resolveFrame_of_jitted jitted]
  cases exactly : (ofProfile profile libraries forest).lookupExact? raw.address with
  | some frame =>
      obtain ⟨declared, number, inside, other⟩ := ne_jitNumber_of_lookupExact? ranged exactly
      have looked : (ofProfile profile libraries forest).lookup raw.address = frame := by
        unfold lookup
        rw [exactly]
      rw [looked]
      exact iff_of_false (fun all => other (all number inside)) fun left => declared left.undeclared
  | none =>
      have undeclared : profile.virtualNames[raw.address]? = none := by
        cases named : profile.virtualNames[raw.address]? with
        | none => rfl
        | some name =>
            obtain ⟨_, _, _, asked⟩ := exactAt?_of_virtualName libraries forest named
            rw [exactAt?_eq_none_iff.mpr exactly] at asked
            cases (Option.or_eq_none_iff.mp asked.symm).2
      have traced : ∀ library ∈ complete (declared profile libraries forest),
          library.kind = .jit → library.exact = false := by
        intro library member kind
        cases exact : library.exact with
        | false => rfl
        | true =>
            rcases mem_declared_of_exact member exact with given | virtual
            · exact exact.symm.trans (ranged library given)
            · cases kind.symm.trans (kind_of_ofVirtualNames? virtual).1
      exact (forall_library_lookup_iff traced exactly).trans
        ⟨fun asked => ⟨undeclared, asked⟩, LeftToTraces.asked⟩

end Compiled

/-- Every frame of a profile which was sampled in compiled code is tagged as such if it
resolves to compiled code, and it does if its address is left to the traces: where no
other library and no virtual name is known for it. -/
theorem tags_of_compiledFrames
    {profile : Profile}
    {libraries : List Library}
    {forest : Option Forest}
    (ranged : ∀ library ∈ libraries, library.exact = false) :
    ∀ (number : Nat) (sample : Sample), profile.samples.toList[number]? = some sample →
      ∃ resolved,
        (Stats.ofProfile profile (ofProfile profile libraries forest)).samples[number]? =
          some resolved ∧
        ∀ (place : Nat) (raw : RawFrame), sample.frames[place]? = some raw → raw.kind = .jitted →
          ∃ frame tag, resolved.frames[place]? = some frame ∧ resolved.tags[place]? = some tag ∧
            (tag = .jit ↔ (ofProfile profile libraries forest).isJit frame) ∧
            ((ofProfile profile libraries forest).isJit frame ↔
              LeftToTraces profile libraries forest raw.address) := by
  intro number sample sampled
  refine ⟨.ofSample (ofProfile profile libraries forest) sample, ?_, ?_⟩
  · unfold Stats.ofProfile
    rw [List.getElem?_map, sampled, Option.map_some]
  · intro place raw here jitted
    have resolved : ((ofProfile profile libraries forest).resolveStack sample)[place]? =
        some ((ofProfile profile libraries forest).resolveFrame raw) := by
      unfold resolveStack
      rw [List.getElem?_map, here, Option.map_some]
    obtain ⟨caller, tagged⟩ :=
      exists_getElem?_tagStack (ofProfile profile libraries forest) resolved
    exact ⟨_, _, resolved, tagged, tagFrame_eq_jit_iff, isJit_resolveFrame_iff ranged jitted⟩

/-- A profile with one sample of one compiled frame. -/
def compiledAt (address : UInt64) : Profile :=
  { Profile.start Forest.stitchedHeader with
    samples := Journal.empty.push
      { count := 1
        frames := [⟨.jitted, address⟩]
        thread := 1
        memory := none
        compiling := false } }

/-- A compiled frame behind a library is compiled code although there are no traces. -/
theorem tags_of_strayFrame :
    ∃ resolved,
      (Stats.ofProfile (compiledAt 0x9000)
        (ofProfile (compiledAt 0x9000) [stripped] none)).samples[0]? = some resolved ∧
      resolved.tags[0]? = some .jit := by
  have ranged : ∀ library ∈ [stripped], library.exact = false := by decide
  obtain ⟨resolved, sampled, tagged⟩ :=
    @tags_of_compiledFrames (compiledAt 0x9000) [stripped] none ranged 0 _ rfl
  obtain ⟨frame, tag, _, isTag, jit, left⟩ := tagged 0 ⟨.jitted, 0x9000⟩ rfl rfl
  have nearest : nearest? Library.start 0x9000
      ((complete (declared (compiledAt 0x9000) [stripped] none)).filter
        fun library => !library.exact) = some stripped := by
    rw [filter_declared]
    decide
  have stray : LeftToTraces (compiledAt 0x9000) [stripped] none 0x9000 := by
    refine ⟨rfl, fun library asked inside => ?_⟩
    cases nearest.symm.trans asked
    exact absurd inside (by decide)
  rw [jit.mpr (left.mpr stray)] at isTag
  exact ⟨resolved, sampled, isTag⟩

/-- A compiled frame in the range of a library does not count as compiled code. -/
theorem not_jit_of_hiddenFrame :
    ¬ ∀ (profile : Profile) (libraries : List Library) (forest : Option Forest),
      (∀ library ∈ libraries, library.exact = false) →
        ∀ sample ∈ profile.samples.toList, ∀ raw ∈ sample.frames, raw.kind = .jitted →
          (ofProfile profile libraries forest).isJit
            ((ofProfile profile libraries forest).resolveFrame raw) := by
  intro claimed
  have ranged : ∀ library ∈ [stripped], library.exact = false := by decide
  have jit := claimed (compiledAt 0x1800) [stripped] none ranged _ List.mem_cons_self
    ⟨.jitted, 0x1800⟩ List.mem_cons_self rfl
  have nearest : nearest? Library.start 0x1800
      ((complete (declared (compiledAt 0x1800) [stripped] none)).filter
        fun library => !library.exact) = some stripped := by
    rw [filter_declared]
    decide
  have left := (isJit_resolveFrame_iff ranged rfl).mp jit
  exact absurd (left.asked stripped nearest (by decide)).1 (by decide)

end AddressSpace
end RuntimeLog
