import Mathlib.Data.List.Perm.Basic
import RuntimeLog.Proofs.Space.Bisection
import RuntimeLog.Proofs.Space.Declared

/-!
# Sound lookups

Whatever ranges and symbols its libraries have, a space does not resolve an address to
a symbol behind it, to one which another symbol follows up to the address, or to one
which ends in front of it.  Lookups do not depend on the order in which libraries with
different start addresses are given.
-/

namespace RuntimeLog

/-! ## Libraries -/

theorem Symbol.reaches_iff {symbol : Symbol} {address : UInt64} :
    symbol.reaches address ↔ ∀ finish, symbol.finish = some finish → address < finish := by
  unfold reaches
  cases symbol.finish <;> simp

namespace Library

variable {library : Library} {symbol : Symbol} {address : UInt64}

/-- The libraries which a program can have. -/
inductive Constructed : Library → Prop
  | range (name : String) (start finish : UInt64) : Constructed (ofRange name start finish)
  /-- Its name, its range and whether it is virtual can be changed at any time. -/
  | changed {library : Library}
      (before : Constructed library)
      (name : String)
      (start finish : UInt64)
      (isVirtual : Bool) :
      Constructed { library with name, start, finish, isVirtual }
  | symbols {library : Library} (before : Constructed library)
      (more : List (UInt64 × String)) :
      Constructed (library.withSymbols more)
  | traces (forest : Forest) : Constructed (ofForest forest)
  | virtualNames {library : Library} {names : AddressMap String}
      (made : ofVirtualNames? names = some library) :
      Constructed library
  | nativeNames {library : Library} {names : AddressMap String}
      (made : ofNativeNames? names = some library) :
      Constructed library

/-- A library in which symbols can be found. -/
structure Searchable (library : Library) : Prop where
  sorted : library.symbols.Pairwise fun left right => left.address ≤ right.address
  /-- Names which stand for addresses have no end. -/
  endless : library.exact → ∀ symbol ∈ library.symbols, symbol.finish = none

/-- Added symbols are sorted and have no end. -/
theorem Searchable.withSymbols
    (searchable : library.Searchable)
    (more : List (UInt64 × String)) :
    (library.withSymbols more).Searchable where
  sorted := pairwise_mergeSort _
  endless := by
    intro exact symbol member
    rcases List.mem_append.mp ((List.mergeSort_perm _ _).mem_iff.mp member) with before | added
    · exact searchable.endless exact symbol before
    · obtain ⟨entry, _, rfl⟩ := List.mem_map.mp added
      rfl

theorem searchable_ofRange (name : String) (start finish : UInt64) :
    (ofRange name start finish).Searchable where
  sorted := List.Pairwise.nil
  endless := by
    intro _ symbol member
    cases member

theorem searchable_ofNames? {name : String} {names : AddressMap String}
    (made : ofNames? name names = some library) :
    library.Searchable ∧ ∀ symbol ∈ library.symbols, symbol.finish = none := by
  obtain ⟨first, last, _, _, rfl⟩ := ofNames?_eq_some made
  refine ⟨(searchable_ofRange _ _ _).withSymbols _, ?_⟩
  intro symbol member
  obtain ⟨entry, _, rfl⟩ := List.mem_map.mp ((List.mergeSort_perm _ _).mem_iff.mp member)
  rfl

/-- Symbols can be found in every library. -/
theorem Constructed.searchable (constructed : library.Constructed) : library.Searchable := by
  induction constructed with
  | range name start finish => exact searchable_ofRange name start finish
  | changed before name start finish isVirtual inductionHypothesis =>
      exact ⟨inductionHypothesis.sorted, inductionHypothesis.endless⟩
  | symbols before more inductionHypothesis => exact inductionHypothesis.withSymbols more
  | traces forest =>
      refine ⟨pairwise_mergeSort _, ?_⟩
      intro exact
      cases exact
  | virtualNames made =>
      obtain ⟨named, same, rfl⟩ := Option.map_eq_some_iff.mp made
      obtain ⟨searchable, endless⟩ := searchable_ofNames? same
      exact ⟨searchable.sorted, fun _ => endless⟩
  | nativeNames made => exact (searchable_ofNames? made).1

/-- A symbol names an address at or behind it if no other symbol stands between and it
does not end before. -/
structure Names (library : Library) (symbol : Symbol) (address : UInt64) : Prop where
  listed : symbol ∈ library.symbols
  below : symbol.address ≤ address
  nearest : ∀ other ∈ library.symbols,
    ¬ (symbol.address < other.address ∧ other.address ≤ address)
  reaches : ∀ finish, symbol.finish = some finish → address < finish

/-- A library has no name for an address if all symbols at or below it are followed by
one which ends before the address. -/
def Nameless (library : Library) (address : UInt64) : Prop :=
  ∀ symbol ∈ library.symbols, symbol.address ≤ address →
    ∃ other ∈ library.symbols, symbol.address ≤ other.address ∧ other.address ≤ address ∧
      ∃ finish, other.finish = some finish ∧ finish ≤ address

/-- The symbol which is found for an address names it. -/
theorem Searchable.names_of_symbolFor?
    (searchable : library.Searchable)
    (found : library.symbolFor? address = some symbol) :
    library.Names symbol address := by
  rw [symbolFor?_eq_filter searchable.sorted] at found
  obtain ⟨nearest, reaches⟩ := Option.filter_eq_some_iff.mp found
  obtain ⟨below, greatest⟩ := isNearest_iff.mp (nearest?_eq_some_iff.mp nearest).1
  exact
    { listed := mem_of_nearest? nearest
      below
      nearest := fun other member between =>
        UInt64.not_lt.mpr (greatest other member between.2) between.1
      reaches := Symbol.reaches_iff.mp reaches }

/-- Where no symbol is found, there is no name. -/
theorem Searchable.nameless_of_symbolFor?
    (searchable : library.Searchable)
    (missing : library.symbolFor? address = none) :
    library.Nameless address := by
  rw [symbolFor?_eq_filter searchable.sorted] at missing
  intro symbol member below
  cases nearest : nearest? Symbol.address address library.symbols with
  | none => exact absurd below (UInt64.not_le.mpr (nearest?_eq_none_iff.mp nearest symbol member))
  | some other =>
      obtain ⟨within, greatest⟩ := isNearest_iff.mp (nearest?_eq_some_iff.mp nearest).1
      have ended : ¬ other.reaches address := by
        intro reaches
        rw [nearest, Option.filter_some, if_pos reaches] at missing
        cases missing
      rw [Symbol.reaches_iff, Classical.not_forall] at ended
      obtain ⟨finish, ended⟩ := ended
      obtain ⟨known, ended⟩ := Classical.not_imp.mp ended
      exact ⟨other, mem_of_nearest? nearest, greatest symbol member below, within, finish, known,
        UInt64.not_lt.mp ended⟩

/-- Every symbol of exactly an address names it. -/
theorem Searchable.names_of_mem
    (searchable : library.Searchable)
    (exact : library.exact)
    (listed : symbol ∈ library.symbols) :
    library.Names symbol symbol.address where
  listed := listed
  below := UInt64.le_refl _
  nearest _ _ between := UInt64.not_lt.mpr between.2 between.1
  reaches finish ends := by
    rw [searchable.endless exact symbol listed] at ends
    cases ends

end Library

/-! ## Spaces -/

namespace AddressSpace

variable {space : AddressSpace} {address : UInt64} {frame : Frame} {libraries others : List Library}

/-- A space misses an address if it stands for no name, and if each library around it is
hidden by another one which starts at least as near without containing it. -/
structure Misses (space : AddressSpace) (address : UInt64) : Prop where
  undeclared : ∀ library ∈ space.libraries, library.exact →
    ∀ symbol ∈ library.symbols, symbol.address ≠ address
  hidden : ∀ library ∈ space.libraries, library.exact = false → library.contains address →
    ∃ other ∈ space.libraries, other.exact = false ∧ library.start ≤ other.start ∧
      other.start ≤ address ∧ ¬ other.contains address

/-- The frames which are right for an address. -/
inductive Resolves (space : AddressSpace) (address : UInt64) : Frame → Prop
  /-- The address stands for the name of a symbol. -/
  | declared {number : Nat} {library : Library} {symbol : Symbol}
      (known : space.library? number = some library)
      (exact : library.exact)
      (same : symbol.address = address)
      (names : library.Names symbol address) :
      Resolves space address (library.frameOf number address (some symbol))
  /-- The address is in the range of a library and named by one of its symbols. -/
  | named {number : Nat} {library : Library} {symbol : Symbol}
      (known : space.library? number = some library)
      (inside : library.contains address)
      (names : library.Names symbol address) :
      Resolves space address (library.frameOf number address (some symbol))
  /-- The address is in the range of a library which has no name for it. -/
  | unnamed {number : Nat} {library : Library}
      (known : space.library? number = some library)
      (inside : library.contains address)
      (nameless : library.Nameless address) :
      Resolves space address (library.frameOf number address none)
  | unknown (misses : space.Misses address) : Resolves space address (.unknown address)

/-- A right frame is at or below the address. -/
theorem Resolves.address_le (resolves : space.Resolves address frame) : frame.address ≤ address := by
  cases resolves with
  | declared known exact same names => exact names.below
  | named known inside names => exact names.below
  | unnamed => exact UInt64.le_refl _
  | unknown => exact UInt64.le_refl _

/-- A right frame in no library is an unknown one. -/
theorem Resolves.eq_unknown
    (resolves : space.Resolves address frame)
    (nowhere : frame.library = none) :
    frame = .unknown address := by
  cases resolves with
  | declared => cases nowhere
  | named => cases nowhere
  | unnamed => cases nowhere
  | unknown => rfl

/-- A right frame in a library is in one around the address, or in one in which the
address stands for a name. -/
theorem Resolves.exists_library
    {number : Nat}
    (resolves : space.Resolves address frame)
    (somewhere : frame.library = some number) :
    ∃ library, space.library? number = some library ∧
      (library.contains address ∨
        library.exact ∧ ∃ symbol ∈ library.symbols, symbol.address = address) := by
  cases resolves with
  | @declared _ library symbol known exact same names =>
      cases somewhere
      exact ⟨library, known, Or.inr ⟨exact, symbol, names.listed, same⟩⟩
  | @named _ library _ known inside =>
      cases somewhere
      exact ⟨library, known, Or.inl inside⟩
  | @unnamed _ library known inside =>
      cases somewhere
      exact ⟨library, known, Or.inl inside⟩
  | unknown => cases somewhere

/-- In a space in order, the library which is asked about an address is nearest to it. -/
theorem InOrder.rangedBelow?_eq (ordered : space.InOrder) (address : UInt64) :
    space.rangedBelow? address =
      nearest? (fun entry : Library × Nat => entry.1.start) address space.ranged :=
  getLast?_takeWhile ordered.pairwise_ranged

/-- Where no name is found for an address, it stands for none. -/
theorem ne_of_lookupExact?
    (unnamed : space.lookupExact? address = none)
    {library : Library}
    (member : library ∈ space.libraries)
    (exact : library.exact)
    {symbol : Symbol}
    (listed : symbol ∈ library.symbols) :
    symbol.address ≠ address := by
  obtain ⟨number, known⟩ := List.mem_iff_getElem?.mp member
  have nothing := List.findSome?_eq_none_iff.mp unnamed (library, number)
    (mem_exact_iff.mpr ⟨known, exact⟩)
  have missing := List.find?_eq_none.mp (Option.map_eq_none_iff.mp nothing) symbol listed
  simpa using missing

/-- An address which stands for no name, and which the nearest library does not
contain, is missed. -/
theorem InOrder.misses
    (ordered : space.InOrder)
    (unnamed : space.lookupExact? address = none)
    (outside : ∀ entry, space.rangedBelow? address = some entry → ¬ entry.1.contains address) :
    space.Misses address where
  undeclared _ member exact _ listed := ne_of_lookupExact? unnamed member exact listed
  hidden := by
    intro library member ranged inside
    obtain ⟨number, known⟩ := List.mem_iff_getElem?.mp member
    have entry := mem_ranged_iff.mpr ⟨known, ranged⟩
    have below := (Library.contains_iff.mp inside).1
    rw [ordered.rangedBelow?_eq] at outside
    cases asked : nearest? (fun entry : Library × Nat => entry.1.start) address space.ranged with
    | none => exact absurd below (UInt64.not_le.mpr (nearest?_eq_none_iff.mp asked _ entry))
    | some nearest =>
        obtain ⟨within, greatest⟩ := isNearest_iff.mp (nearest?_eq_some_iff.mp asked).1
        obtain ⟨otherKnown, otherRanged⟩ := mem_ranged_iff.mp (mem_of_nearest? asked)
        exact ⟨nearest.1, List.mem_of_getElem? otherKnown, otherRanged,
          greatest _ entry below, within, outside nearest asked⟩

/-- In a space in order, lookups of addresses which stand for no name are right. -/
theorem InOrder.resolves_lookup_of_unasked
    (ordered : space.InOrder)
    (searchable : ∀ library ∈ space.libraries, library.Searchable)
    (unasked : space.exactAt? address = none) :
    space.Resolves address (space.lookup address) := by
  have unnamed := exactAt?_eq_none_iff.mp unasked
  have missed := ordered.misses unnamed
  unfold lookup
  rw [unnamed]
  cases asked : space.rangedBelow? address with
  | none =>
      rw [asked] at missed
      exact .unknown (missed fun _ nothing => by cases nothing)
  | some entry =>
      obtain ⟨library, number⟩ := entry
      have known := library?_of_rangedBelow? asked
      show space.Resolves address
        (if library.contains address then frameIn library number address else .unknown address)
      split
      · rename_i inside
        have symbols := searchable library (List.mem_of_getElem? known)
        rw [frameIn_eq]
        cases found : library.symbolFor? address with
        | none => exact .unnamed known inside (symbols.nameless_of_symbolFor? found)
        | some symbol => exact .named known inside (symbols.names_of_symbolFor? found)
      · rename_i outside
        rw [asked] at missed
        refine .unknown (missed fun other same => ?_)
        cases same
        exact outside

/-- In a space in order, every frame which a lookup may give is right. -/
theorem InOrder.resolves_of_mayGive
    (ordered : space.InOrder)
    (searchable : ∀ library ∈ space.libraries, library.Searchable)
    (given : space.MayGive address frame) :
    space.Resolves address frame := by
  cases given with
  | exactly asked listed same =>
      obtain ⟨known, exact⟩ := mem_exact_iff.mp (exists_symbol_of_exactAt? asked).1
      subst same
      exact .declared known exact rfl
        ((searchable _ (List.mem_of_getElem? known)).names_of_mem exact listed)
  | ranged unasked => exact ordered.resolves_lookup_of_unasked searchable unasked

/-! ## Orders -/

/-- Of libraries with different start addresses, any order has the same ones at each
address. -/
theorem filter_start_of_perm
    (same : others.Perm libraries)
    (different : libraries.Pairwise fun left right => left.start ≠ right.start)
    (wanted : UInt64) :
    others.filter (fun library => library.start == wanted) =
      libraries.filter fun library => library.start == wanted := by
  have here := same.filter fun library : Library => library.start == wanted
  have alone := different.filter fun library : Library => library.start == wanted
  cases kept : libraries.filter fun library => library.start == wanted with
  | nil =>
      rw [kept] at here
      exact List.perm_nil.mp here
  | cons first rest =>
      cases rest with
      | nil =>
          rw [kept] at here
          exact List.perm_singleton.mp here
      | cons second rest =>
          rw [kept] at alone
          have begins (library : Library) (member : library ∈ first :: second :: rest) :
              library.start = wanted := by
            rw [← kept] at member
            exact beq_iff_eq.mp (List.mem_filter.mp member).2
          have apart := (List.pairwise_cons.mp alone).1 second List.mem_cons_self
          exact absurd ((begins first (by simp)).trans (begins second (by simp)).symm) apart

/-- Libraries with different start addresses make the same space in any order,
whatever libraries are added to them. -/
theorem ofLibraries_append_of_perm
    (same : others.Perm libraries)
    (different : libraries.Pairwise fun left right => left.start ≠ right.start)
    (added : List Library) :
    ofLibraries (others ++ added) = ofLibraries (libraries ++ added) := by
  have completed : completion (others ++ added) = completion (libraries ++ added) := by
    unfold completion
    rw [List.any_append, List.any_append, same.any_eq]
  have sorted : sortLibraries (complete (others ++ added)) =
      sortLibraries (complete (libraries ++ added)) := by
    unfold sortLibraries
    refine eq_of_filter_eq (pairwise_mergeSort _) (pairwise_mergeSort _) fun wanted => ?_
    rw [filter_mergeSort, filter_mergeSort, complete_eq, complete_eq, completed]
    simp only [List.filter_append, filter_start_of_perm same different wanted]
  exact congrArg AddressSpace.mk sorted

/-- This also holds for the space of a profile. -/
theorem ofProfile_of_perm
    (same : others.Perm libraries)
    (different : libraries.Pairwise fun left right => left.start ≠ right.start)
    (profile : Profile)
    (forest : Option Forest) :
    ofProfile profile others forest = ofProfile profile libraries forest := by
  have made (given : List Library) :
      ofProfile profile given forest = ofLibraries (given ++ declared profile [] forest) := by
    unfold ofProfile declared
    simp only [List.append_assoc, List.nil_append]
  rw [made, made]
  exact ofLibraries_append_of_perm same different _

/-! ## Spaces of constructed libraries -/

/-- What a space says about addresses is right. -/
structure Sound (space : AddressSpace) : Prop where
  below : ∀ address, (space.lookup address).address ≤ address
  unknown : ∀ address, (space.lookup address).library = none →
    space.lookup address = .unknown address
  inside : ∀ address number, (space.lookup address).library = some number →
    ∃ library, space.library? number = some library ∧
      (library.contains address ∨
        library.exact ∧ ∃ symbol ∈ library.symbols, symbol.address = address)
  resolves : ∀ address, space.Resolves address (space.lookup address)
  /-- This does not depend on which symbol of an address is found. -/
  whichever : ∀ address frame, space.MayGive address frame → space.Resolves address frame
  /-- Bisection stays within the lists. -/
  inBounds : ∀ address, space.search? address = some (space.lookup address)

theorem InOrder.sound
    (ordered : space.InOrder)
    (searchable : ∀ library ∈ space.libraries, library.Searchable) :
    space.Sound :=
  have right (address : UInt64) : space.Resolves address (space.lookup address) :=
    ordered.resolves_of_mayGive searchable (mayGive_lookup space address)
  { below := fun address => (right address).address_le
    unknown := fun address => (right address).eq_unknown
    inside := fun address _ => (right address).exists_library
    resolves := right
    whichever := fun _ _ => ordered.resolves_of_mayGive searchable
    inBounds := search?_eq ordered }

/-- The library which completes a space is a constructed one, too. -/
theorem constructed_of_mem
    (constructed : ∀ library ∈ libraries, library.Constructed)
    {library : Library}
    (member : library ∈ (ofLibraries libraries).libraries) :
    library.Constructed := by
  have listed : library ∈ complete libraries := (List.mergeSort_perm _ _).mem_iff.mp member
  rcases mem_complete listed with given | rfl
  · exact constructed library given
  · exact .range _ _ _

theorem sound_ofLibraries (constructed : ∀ library ∈ libraries, library.Constructed) :
    (ofLibraries libraries).Sound := by
  have searchable (library : Library) (member : library ∈ (ofLibraries libraries).libraries) :
      library.Searchable :=
    (constructed_of_mem constructed member).searchable
  have ordered : (ofLibraries libraries).InOrder :=
    { libraries := pairwise_mergeSort _
      symbols := fun library member => (searchable library member).sorted }
  exact ordered.sound searchable

/-- The libraries which are made for a profile are constructed ones. -/
theorem constructed_of_mem_declared
    (constructed : ∀ library ∈ libraries, library.Constructed)
    {profile : Profile}
    {forest : Option Forest}
    {library : Library}
    (member : library ∈ declared profile libraries forest) :
    library.Constructed := by
  simp only [declared, List.mem_append, Option.mem_toList, Option.map_eq_some_iff] at member
  rcases member with ((given | ⟨traces, _, rfl⟩) | virtual) | native
  · exact constructed library given
  · exact .traces traces
  · exact .virtualNames virtual
  · exact .nativeNames native

/-- Spaces are sound, whatever ranges and symbols their libraries have, and do not
depend on the order of libraries with different start addresses. -/
theorem sound_of_constructed (constructed : ∀ library ∈ libraries, library.Constructed) :
    (ofLibraries libraries).Sound ∧
      (∀ profile forest, (ofProfile profile libraries forest).Sound) ∧
      (libraries.Pairwise (fun left right => left.start ≠ right.start) →
        ∀ others, others.Perm libraries →
          ofLibraries others = ofLibraries libraries ∧
            ∀ profile forest,
              ofProfile profile others forest = ofProfile profile libraries forest) := by
  refine ⟨sound_ofLibraries constructed, ?_, ?_⟩
  · intro profile forest
    exact sound_ofLibraries fun library member => constructed_of_mem_declared constructed member
  · intro different others same
    have plain := ofLibraries_append_of_perm same different []
    rw [List.append_nil, List.append_nil] at plain
    exact ⟨plain, ofProfile_of_perm same different⟩

/-- Libraries which overlap.  One of them ends before it starts, and another one has two
names for an address. -/
def tangledLibraries : List Library :=
  [twoFunctions, Library.ofRange "/opt/inverted.so" 0x3000 0x2000,
    (Library.ofRange "/opt/liby.so" 0x1800 0x2800).withSymbols
      [(0x2000, "second"), (0x1900, "first"), (0x2000, "again")]]

theorem constructed_tangledLibraries : ∀ library ∈ tangledLibraries, library.Constructed := by
  simp only [tangledLibraries, List.forall_mem_cons]
  exact ⟨.symbols (.range _ _ _) _, .range _ _ _, .symbols (.range _ _ _) _, by simp⟩

/-- The space of these libraries is sound, and the same one in the opposite order. -/
theorem sound_tangledLibraries :
    (ofLibraries tangledLibraries).Sound ∧
      ofLibraries tangledLibraries.reverse = ofLibraries tangledLibraries := by
  obtain ⟨sound, _, ordered⟩ := sound_of_constructed constructed_tangledLibraries
  have different : tangledLibraries.Pairwise fun left right => left.start ≠ right.start := by
    decide
  exact ⟨sound, (ordered different _ (List.reverse_perm _)).1⟩

end AddressSpace
end RuntimeLog
