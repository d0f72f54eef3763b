import Mathlib.Data.List.Perm.Subperm
import RuntimeLog.Proofs.Space.Declared

/-!
# Overlaps

A space compares every library with the one in front of it, in the order of their
start addresses.  What it reports always is an overlap.  An overlap of libraries which
are no neighbours shows between the first one and its neighbour, unless this one is
empty.
-/

namespace RuntimeLog

/-! ## Ranges -/

namespace Library

variable {left right library : Library}

/-- Whether a library has no addresses. -/
def isEmpty (library : Library) : Bool :=
  library.finish ≤ library.start

theorem not_isEmpty_iff : ¬ library.isEmpty ↔ library.start < library.finish := by
  rw [isEmpty, decide_eq_true_eq, UInt64.not_le]

theorem not_isEmpty_of_contains {address : UInt64} (inside : library.contains address) :
    ¬ library.isEmpty := by
  obtain ⟨above, below⟩ := contains_iff.mp inside
  exact not_isEmpty_iff.mpr (UInt64.lt_of_le_of_lt above below)

/-- What it means for libraries to overlap. -/
theorem not_apart_iff :
    ¬ left.Apart right ↔ ∃ address, left.contains address ∧ right.contains address := by
  unfold Apart
  exact Classical.not_forall_not

theorem Apart.symm (apart : left.Apart right) : right.Apart left :=
  fun address both => apart address both.symm

end Library

namespace AddressSpace

variable {libraries before between after : List Library} {left right library : Library}
  {overlap : Overlap}

/-! ## Neighbours -/

/-- An overlap is reported exactly where a library which is not empty starts before its
neighbour ends. -/
theorem mem_overlapsOf_iff :
    overlap ∈ overlapsOf libraries ↔
      ∃ before after,
        libraries = before ++ overlap.previous :: overlap.library :: after ∧
          overlap.library.start < overlap.previous.finish ∧
          overlap.library.start < overlap.library.finish := by
  induction libraries with
  | nil => simp [overlapsOf]
  | cons previous others inductionHypothesis =>
      cases others with
      | nil => simp [overlapsOf, List.cons_eq_append_iff]
      | cons library rest =>
          rw [overlapsOf, List.mem_append, inductionHypothesis]
          constructor
          · rintro (here | ⟨before, after, split, reported⟩)
            · split at here
              · rename_i reported
                cases List.mem_singleton.mp here
                exact ⟨[], rest, rfl, reported⟩
              · cases here
            · exact ⟨previous :: before, after, by rw [split, List.cons_append], reported⟩
          · rintro ⟨before, after, split, reported⟩
            cases before with
            | nil =>
                obtain ⟨rfl, behind⟩ := List.cons.inj split
                obtain ⟨rfl, rfl⟩ := List.cons.inj behind
                exact Or.inl (by rw [if_pos reported]; exact List.mem_singleton.mpr rfl)
            | cons first before =>
                obtain ⟨rfl, behind⟩ := List.cons.inj split
                exact Or.inr ⟨before, after, behind, reported⟩

/-- In the order of start addresses, a reported overlap is one. -/
theorem contains_of_mem_overlapsOf
    (sorted : libraries.Pairwise fun left right => left.start ≤ right.start)
    (reported : overlap ∈ overlapsOf libraries) :
    overlap.previous.contains overlap.library.start ∧
      overlap.library.contains overlap.library.start := by
  obtain ⟨before, after, rfl, within, nonempty⟩ := mem_overlapsOf_iff.mp reported
  have ordered := (List.pairwise_append.mp sorted).2.1
  have above := (List.pairwise_cons.mp ordered).1 overlap.library List.mem_cons_self
  exact ⟨Library.contains_iff.mpr ⟨above, within⟩,
    Library.contains_iff.mpr ⟨UInt64.le_refl _, nonempty⟩⟩

/-- Where two libraries meet, those between them start inside the first one, as the
second one does. -/
theorem contains_start_of_meet
    (sorted : (before ++ left :: (between ++ right :: after)).Pairwise
      fun left right => left.start ≤ right.start)
    (meet : ¬ left.Apart right)
    (listed : library = right ∨ library ∈ between) :
    left.contains library.start := by
  obtain ⟨address, inLeft, inRight⟩ := Library.not_apart_iff.mp meet
  obtain ⟨first, behind⟩ := List.pairwise_cons.mp (List.pairwise_append.mp sorted).2.1
  have above : left.start ≤ library.start := by
    rcases listed with rfl | member
    · exact first library (List.mem_append_right _ List.mem_cons_self)
    · exact first library (List.mem_append_left _ member)
  have below : library.start ≤ right.start := by
    rcases listed with rfl | member
    · exact UInt64.le_refl _
    · exact (List.pairwise_append.mp behind).2.2 library member right List.mem_cons_self
  exact Library.contains_iff.mpr ⟨above,
    UInt64.lt_of_le_of_lt (UInt64.le_trans below (Library.contains_iff.mp inRight).1)
      (Library.contains_iff.mp inLeft).2⟩

/-- An overlap is reported if no empty library stands between. -/
theorem exists_mem_overlapsOf
    (sorted : (before ++ left :: (between ++ right :: after)).Pairwise
      fun left right => left.start ≤ right.start)
    (meet : ¬ left.Apart right)
    (nonempty : ∀ library ∈ between, ¬ library.isEmpty) :
    ∃ overlap ∈ overlapsOf (before ++ left :: (between ++ right :: after)),
      overlap.previous = left := by
  obtain ⟨address, _, inRight⟩ := Library.not_apart_iff.mp meet
  -- the first one overlaps its neighbour, whether this is the other library or not
  obtain ⟨next, rest, split, listed, nextNonempty⟩ :
      ∃ next rest, between ++ right :: after = next :: rest ∧
        (next = right ∨ next ∈ between) ∧ ¬ next.isEmpty := by
    cases between with
    | nil => exact ⟨right, after, rfl, Or.inl rfl, Library.not_isEmpty_of_contains inRight⟩
    | cons next between =>
        exact ⟨next, between ++ right :: after, rfl, Or.inr List.mem_cons_self,
          nonempty next List.mem_cons_self⟩
  have inside := contains_start_of_meet sorted meet listed
  exact ⟨⟨next, left⟩,
    mem_overlapsOf_iff.mpr ⟨before, rest, by rw [split], (Library.contains_iff.mp inside).2,
      Library.not_isEmpty_iff.mp nextNonempty⟩, rfl⟩

/-- Libraries are not apart if two of them, with others around, have an address in
common. -/
theorem not_pairwise_apart_iff :
    ¬ libraries.Pairwise Library.Apart ↔
      ∃ before left between right after,
        libraries = before ++ left :: (between ++ right :: after) ∧ ¬ left.Apart right := by
  constructor
  · intro meet
    induction libraries with
    | nil => exact absurd List.Pairwise.nil meet
    | cons first others inductionHypothesis =>
        by_cases apart : ∀ other ∈ others, first.Apart other
        · obtain ⟨before, left, between, right, after, rfl, common⟩ :=
            inductionHypothesis fun rest => meet (List.pairwise_cons.mpr ⟨apart, rest⟩)
          exact ⟨first :: before, left, between, right, after, rfl, common⟩
        · obtain ⟨other, apart⟩ := Classical.not_forall.mp apart
          obtain ⟨member, common⟩ := Classical.not_imp.mp apart
          obtain ⟨between, after, rfl⟩ := List.append_of_mem member
          exact ⟨[], first, between, other, after, rfl, common⟩
  · rintro ⟨before, left, between, right, after, rfl, meet⟩ apart
    have behind := (List.pairwise_cons.mp (List.pairwise_append.mp apart).2.1).1
    exact meet (behind right (List.mem_append_right _ List.mem_cons_self))

/-! ## Spaces -/

/-- The libraries with ranges are the given ones and maybe an empty one of compiled
traces. -/
theorem perm_ranged (libraries : List Library) :
    ((ofLibraries libraries).ranged.map Prod.fst).Perm
      ((libraries.filter fun library => !library.exact) ++ completion libraries) := by
  have ranged : (completion libraries).filter (fun library => !library.exact) =
      completion libraries := by
    unfold completion
    split <;> rfl
  rw [map_fst_ranged, ← ranged, ← List.filter_append, ← complete_eq]
  exact (List.mergeSort_perm _ _).filter _

theorem not_contains_completion {address : UInt64} (member : library ∈ completion libraries) :
    ¬ library.contains address := by
  unfold completion at member
  split at member
  · cases member
  · rw [List.mem_singleton.mp member]
    exact not_contains_jit address

/-- The ranges of a space are apart exactly if the given ones are. -/
theorem pairwise_apart_ranged (libraries : List Library) :
    ((ofLibraries libraries).ranged.map Prod.fst).Pairwise Library.Apart ↔
      (libraries.filter fun library => !library.exact).Pairwise Library.Apart := by
  rw [(perm_ranged libraries).pairwise_iff Library.Apart.symm, List.pairwise_append]
  constructor
  · exact fun apart => apart.1
  · intro apart
    refine ⟨apart, ?_, fun given _ added member address both =>
      not_contains_completion member both.2⟩
    unfold completion
    split
    · exact List.Pairwise.nil
    · exact List.pairwise_singleton _ _

/-- A reported overlap is one of two given libraries with ranges. -/
theorem subperm_of_mem_overlaps (reported : overlap ∈ (ofLibraries libraries).overlaps) :
    [overlap.previous, overlap.library].Subperm
        (libraries.filter fun library => !library.exact) ∧
      ¬ overlap.previous.Apart overlap.library := by
  obtain ⟨inPrevious, inLibrary⟩ :=
    contains_of_mem_overlapsOf (pairwise_ranged libraries) reported
  refine ⟨?_, Library.not_apart_iff.mpr ⟨_, inPrevious, inLibrary⟩⟩
  obtain ⟨before, after, split, _⟩ := mem_overlapsOf_iff.mp reported
  have neighbours : [overlap.previous, overlap.library].Sublist
      ((ofLibraries libraries).ranged.map Prod.fst) := by
    rw [split]
    exact (((List.nil_sublist after).cons_cons _).cons_cons _).trans
      (List.sublist_append_right before _)
  -- neither of them is the one of compiled traces, since they are not empty
  have kept : [overlap.previous, overlap.library].filter (fun library => !library.isEmpty) =
      [overlap.previous, overlap.library] := by
    have previous := Library.not_isEmpty_of_contains inPrevious
    have library := Library.not_isEmpty_of_contains inLibrary
    simp [previous, library]
  have dropped : (completion libraries).filter (fun library => !library.isEmpty) = [] := by
    unfold completion
    split <;> rfl
  have among := (perm_ranged libraries).filter fun library => !library.isEmpty
  rw [List.filter_append, dropped, List.append_nil] at among
  rw [← kept]
  exact (neighbours.filter _).subperm.trans (among.subperm.trans List.filter_sublist.subperm)

/-- An overlap is reported exactly if two libraries have an address in common and no
empty library stands between them. -/
theorem overlaps_ne_nil_iff (libraries : List Library) :
    (ofLibraries libraries).overlaps ≠ [] ↔
      ∃ before left between right after,
        (ofLibraries libraries).ranged.map Prod.fst =
            before ++ left :: (between ++ right :: after) ∧
          ¬ left.Apart right ∧ ∀ library ∈ between, ¬ library.isEmpty := by
  constructor
  · intro some
    obtain ⟨overlap, reported⟩ := List.exists_mem_of_ne_nil _ some
    obtain ⟨before, after, split, _⟩ := mem_overlapsOf_iff.mp reported
    exact ⟨before, overlap.previous, [], overlap.library, after, split,
      (subperm_of_mem_overlaps reported).2, by simp⟩
  · rintro ⟨before, left, between, right, after, split, meet, nonempty⟩
    have sorted := pairwise_ranged libraries
    rw [split] at sorted
    obtain ⟨overlap, reported, _⟩ := exists_mem_overlapsOf sorted meet nonempty
    rw [← split] at reported
    exact List.ne_nil_of_mem reported

/-- Where no empty library starts inside another one, some overlap is reported exactly
if two libraries have an address in common. -/
theorem overlaps_ne_nil_of_clear
    (clear : ∀ empty ∈ complete libraries, empty.exact = false → empty.isEmpty →
      ∀ library ∈ libraries, library.exact = false → ¬ library.contains empty.start) :
    (ofLibraries libraries).overlaps ≠ [] ↔
      ¬ (libraries.filter fun library => !library.exact).Pairwise Library.Apart := by
  rw [← pairwise_apart_ranged, not_pairwise_apart_iff, overlaps_ne_nil_iff]
  constructor
  · rintro ⟨before, left, between, right, after, split, meet, _⟩
    exact ⟨before, left, between, right, after, split, meet⟩
  · rintro ⟨before, left, between, right, after, split, meet⟩
    refine ⟨before, left, between, right, after, split, meet, fun library member empty => ?_⟩
    have sorted := pairwise_ranged libraries
    rw [split] at sorted
    have inside := contains_start_of_meet sorted meet (Or.inr member)
    have listed (other : Library)
        (member : other ∈ before ++ left :: (between ++ right :: after)) :
        other ∈ complete libraries ∧ other.exact = false := by
      rw [← split] at member
      exact mem_map_fst_ranged_iff.mp member
    obtain ⟨emptyListed, emptyRanged⟩ := listed library (by simp [member])
    obtain ⟨leftListed, leftRanged⟩ := listed left (by simp)
    rcases mem_complete leftListed with given | rfl
    · exact clear library emptyListed emptyRanged empty left given leftRanged inside
    · exact not_contains_jit _ inside

/-- What a space reports are overlaps of two given libraries.  Overlaps do not go
unreported unless an empty library stands between all those which overlap, in the
order of their start addresses; the one of compiled traces, which completes a space,
is such a library.  Libraries of names which stand for themselves have no ranges. -/
theorem overlaps_ofLibraries (libraries : List Library) :
    (∀ overlap ∈ (ofLibraries libraries).overlaps,
      [overlap.previous, overlap.library].Subperm
          (libraries.filter fun library => !library.exact) ∧
        ∃ address, overlap.previous.contains address ∧ overlap.library.contains address) ∧
      ((ofLibraries libraries).overlaps ≠ [] ↔
        ∃ before left between right after,
          (ofLibraries libraries).ranged.map Prod.fst =
              before ++ left :: (between ++ right :: after) ∧
            (∃ address, left.contains address ∧ right.contains address) ∧
            ∀ library ∈ between, ¬ library.isEmpty) ∧
      ((∀ empty ∈ complete libraries, empty.exact = false → empty.isEmpty →
          ∀ library ∈ libraries, library.exact = false → ¬ library.contains empty.start) →
        ((ofLibraries libraries).overlaps ≠ [] ↔
          ¬ (libraries.filter fun library => !library.exact).Pairwise Library.Apart)) := by
  refine ⟨?_, ?_, overlaps_ne_nil_of_clear⟩
  · intro overlap reported
    obtain ⟨given, meet⟩ := subperm_of_mem_overlaps reported
    exact ⟨given, Library.not_apart_iff.mp meet⟩
  · simp only [← Library.not_apart_iff]
    exact overlaps_ne_nil_iff libraries

/-- A library inside another one is reported, also if an empty one lies elsewhere. -/
theorem overlaps_of_nestedLibraries :
    (ofLibraries
      [Library.ofRange "/opt/libx.so" 0x1000 0x4000, Library.ofRange "/opt/empty.so" 0x9000 0x9000,
        Library.ofRange "/opt/liby.so" 0x2000 0x3000]).overlaps ≠ [] := by
  refine ((overlaps_ofLibraries _).2.2 (by decide)).mpr ?_
  intro apart
  have separate := (List.pairwise_cons.mp apart).1 (Library.ofRange "/opt/liby.so" 0x2000 0x3000)
    (by decide)
  exact separate 0x2000 (by decide)

/-- Two libraries which overlap, and of which the first one starts at address zero. -/
def lowLibraries : List Library :=
  [Library.ofRange "/opt/libx.so" 0 0x100, Library.ofRange "/opt/liby.so" 0x50 0x60]

/-- The empty library which completes their space stands between them. -/
theorem ranged_lowLibraries :
    (ofLibraries lowLibraries).ranged.map Prod.fst =
      [Library.ofRange "/opt/libx.so" 0 0x100, Library.ofRange LibraryKind.jitName 0 0,
        Library.ofRange "/opt/liby.so" 0x50 0x60] := by
  rw [map_fst_ranged, sortLibraries, filter_keep_mergeSort]
  refine eq_of_filter_eq (pairwise_mergeSort _) (by decide) fun wanted => ?_
  rw [filter_mergeSort]
  show [Library.ofRange "/opt/libx.so" 0 0x100, Library.ofRange "/opt/liby.so" 0x50 0x60,
    Library.ofRange LibraryKind.jitName 0 0].filter (fun library => library.start == wanted) = _
  by_cases first : (0 : UInt64) = wanted
  · subst first
    rfl
  · simp [List.filter_cons, Library.ofRange, first]

/-- Two overlapping libraries of which the first one starts at address zero go
unreported: the empty one which completes the space stands between them. -/
theorem exists_unreported_overlap :
    ¬ ∀ libraries : List Library,
      (∀ library ∈ libraries, library.exact = false) →
        ((ofLibraries libraries).overlaps ≠ [] ↔ ¬ libraries.Pairwise Library.Apart) := by
  intro claimed
  refine (claimed lowLibraries (by decide)).mpr ?_ ?_
  · intro apart
    have separate := (List.pairwise_cons.mp apart).1
      (Library.ofRange "/opt/liby.so" 0x50 0x60) (by decide)
    exact separate 0x50 (by decide)
  · rw [overlaps, ranged_lowLibraries]
    rfl

end AddressSpace
end RuntimeLog
