import RuntimeLog.Proofs.Space.Nearest
import RuntimeLog.Space.AddressSpace

/-!
# Lookups

A lookup asks one library: the nearest one which starts at or below the address.
Where the ranges of libraries are disjoint this is the one which contains the
address, unless an empty library starts between.
-/

namespace RuntimeLog

/-! ## Symbols -/

namespace Library

/-- A symbol as it was added. -/
def addedSymbol (entry : UInt64 × String) : Symbol :=
  { address := entry.1, finish := none, name := entry.2 }

/-- A library which was made of a range by adding symbols and by saying whether it
is virtual, with all symbols in the order in which they were added. -/
inductive Built : Library → List (UInt64 × String) → Prop
  | range (name : String) (start finish : UInt64) : Built (ofRange name start finish) []
  | virtual
      {library : Library}
      {added : List (UInt64 × String)}
      (before : Built library added)
      (isVirtual : Bool) :
      Built (library.withVirtual isVirtual) added
  | symbols
      {library : Library}
      {added : List (UInt64 × String)}
      (before : Built library added)
      (more : List (UInt64 × String)) :
      Built (library.withSymbols more) (added ++ more)

variable {added : List (UInt64 × String)} {library : Library}

/-- A built library is asked about all addresses of its range. -/
theorem Built.exact_eq (built : library.Built added) : library.exact = false := by
  induction built with
  | range => rfl
  | virtual before isVirtual inductionHypothesis => exact inductionHypothesis
  | symbols before more inductionHypothesis => exact inductionHypothesis

/-- The symbols of a built library are sorted, and those of each address are the
added ones. -/
theorem Built.symbols_eq (built : library.Built added) :
    library.symbols.Pairwise (fun left right => left.address ≤ right.address) ∧
      ∀ address,
        library.symbols.filter (fun symbol => symbol.address == address) =
          (added.map addedSymbol).filter fun symbol => symbol.address == address := by
  induction built with
  | range => exact ⟨List.Pairwise.nil, fun _ => rfl⟩
  | virtual before isVirtual inductionHypothesis => exact inductionHypothesis
  | @symbols library added before more inductionHypothesis =>
      refine ⟨pairwise_mergeSort _, fun address => ?_⟩
      refine (filter_mergeSort (library.symbols ++ more.map addedSymbol) address).trans ?_
      rw [List.filter_append, inductionHypothesis.2, List.map_append, List.filter_append]

/-- In sorted symbols, the nearest one is found if it does not end before. -/
theorem symbolFor?_eq_filter
    (sorted : library.symbols.Pairwise fun left right => left.address ≤ right.address)
    (address : UInt64) :
    library.symbolFor? address =
      (nearest? Symbol.address address library.symbols).filter fun symbol =>
        symbol.reaches address := by
  unfold symbolFor?
  rw [getLast?_takeWhile sorted]

/-- The symbol of exactly an address is one of that address. -/
theorem mem_of_exactSymbol?
    {symbol : Symbol}
    {address : UInt64}
    (found : library.exactSymbol? address = some symbol) :
    symbol ∈ library.symbols ∧ symbol.address = address :=
  ⟨List.mem_of_find?_eq_some found, beq_iff_eq.mp
    (List.find?_some (p := fun symbol : Symbol => symbol.address == address) found)⟩

/-- No symbol of exactly an address is found where there is none. -/
theorem exactSymbol?_eq_none_iff {address : UInt64} :
    library.exactSymbol? address = none ↔ ∀ symbol ∈ library.symbols, symbol.address ≠ address := by
  simp [exactSymbol?]

/-- A built library finds the nearest one of the added symbols. -/
theorem Built.symbolFor?_eq (built : library.Built added) (address : UInt64) :
    library.symbolFor? address = (nearest? Prod.fst address added).map addedSymbol := by
  obtain ⟨sorted, same⟩ := built.symbols_eq
  rw [symbolFor?_eq_filter sorted, nearest?_congr same, nearest?_map]
  show Option.filter _ ((nearest? Prod.fst address added).map addedSymbol) = _
  cases nearest? Prod.fst address added <;> rfl

/-- The frame of an address in a library: it is named by the nearest of the added
symbols. -/
def frame (library : Library) (added : List (UInt64 × String)) (number : Nat) (address : UInt64) :
    Frame :=
  match nearest? Prod.fst address added with
  | some (start, name) =>
      { name, address := start, library := some number, isVirtual := library.isVirtual }
  | none =>
      { name := Text.hex address.toNat, address, library := some number, isVirtual := false }

/-- A built library gives the frame of its nearest symbol. -/
theorem Built.frameIn_eq (built : library.Built added) (number : Nat) (address : UInt64) :
    AddressSpace.frameIn library number address = library.frame added number address := by
  unfold AddressSpace.frameIn frame
  rw [built.symbolFor?_eq]
  cases nearest? Prod.fst address added <;> rfl

/-- What it means to be in the range of a library. -/
theorem contains_iff {address : UInt64} :
    library.contains address ↔ library.start ≤ address ∧ address < library.finish := by
  simp [contains]

/-- The name which a library has for an address of its range. -/
def nameAt? (library : Library) (address : UInt64) : Option String :=
  if library.contains address then (library.symbolFor? address).map Symbol.name else none

/-- A library has no names for addresses outside its range. -/
theorem nameAt?_of_not_contains {address : UInt64} (outside : ¬ library.contains address) :
    library.nameAt? address = none :=
  if_neg outside

/-- Libraries whose ranges have no address in common. -/
def Apart (left right : Library) : Prop :=
  ∀ address, ¬ (left.contains address ∧ right.contains address)

/-- A library of a list of disjoint ones is disjoint from all others. -/
theorem apart_of_pairwise
    {before after : List Library}
    {other : Library}
    (disjoint : (before ++ library :: after).Pairwise Apart)
    (elsewhere : other ∈ before ++ after) :
    library.Apart other := by
  obtain ⟨_, rest, across⟩ := List.pairwise_append.mp disjoint
  rcases List.mem_append.mp elsewhere with earlier | later
  · exact fun address both => across other earlier library List.mem_cons_self address both.symm
  · exact (List.pairwise_cons.mp rest).1 other later

end Library

/-! ## Libraries -/

namespace AddressSpace

/-- The libraries of a space, before they are sorted. -/
def complete (libraries : List Library) : List Library :=
  if libraries.any fun library => library.kind = .jit then libraries
  else libraries ++ [Library.ofRange LibraryKind.jitName 0 0]

variable {libraries : List Library} {library : Library} {address : UInt64}

theorem mem_numbered_iff {space : AddressSpace} {number : Nat} :
    (library, number) ∈ space.numbered ↔ space.library? number = some library :=
  List.mem_zipIdx_iff_getElem?

theorem mem_ranged_iff {space : AddressSpace} {number : Nat} :
    (library, number) ∈ space.ranged ↔
      space.library? number = some library ∧ library.exact = false := by
  rw [ranged, List.mem_filter, mem_numbered_iff, Bool.not_eq_true']

theorem mem_exact_iff {space : AddressSpace} {number : Nat} :
    (library, number) ∈ space.exact ↔ space.library? number = some library ∧ library.exact := by
  rw [exact, List.mem_filter, mem_numbered_iff]

/-- The libraries with ranges are those of which a space was made, in the order of
their start addresses. -/
theorem map_fst_ranged (libraries : List Library) :
    (ofLibraries libraries).ranged.map Prod.fst =
      (sortLibraries (complete libraries)).filter fun library => !library.exact := by
  have all : (ofLibraries libraries).numbered.map Prod.fst = sortLibraries (complete libraries) :=
    List.zipIdx_map_fst 0 _
  rw [← all, List.filter_map]
  rfl

/-- A library with a range is one of those of which a space was made. -/
theorem mem_map_fst_ranged_iff :
    library ∈ (ofLibraries libraries).ranged.map Prod.fst ↔
      library ∈ complete libraries ∧ library.exact = false := by
  have sorted : library ∈ sortLibraries (complete libraries) ↔ library ∈ complete libraries :=
    (List.mergeSort_perm _ _).mem_iff
  rw [map_fst_ranged, List.mem_filter, sorted, Bool.not_eq_true']

theorem pairwise_ranged (libraries : List Library) :
    ((ofLibraries libraries).ranged.map Prod.fst).Pairwise
      fun left right => left.start ≤ right.start := by
  rw [map_fst_ranged]
  exact (pairwise_mergeSort _).filter _

/-- The library which is asked about an address is the nearest one. -/
theorem rangedBelow?_ofLibraries (libraries : List Library) (address : UInt64) :
    ((ofLibraries libraries).rangedBelow? address).map Prod.fst =
      nearest? Library.start address
        ((complete libraries).filter fun library => !library.exact) := by
  have sorted := pairwise_ranged libraries
  rw [map_fst_ranged] at sorted
  have taken := congrArg List.getLast? (List.takeWhile_map
    (p := fun library : Library => library.start ≤ address) (f := Prod.fst)
    (l := (ofLibraries libraries).ranged))
  rw [map_fst_ranged, getLast?_takeWhile sorted, List.getLast?_map] at taken
  rw [← nearest?_filter_mergeSort]
  exact taken.symm

/-- The library which is asked about an address has its number. -/
theorem library?_of_rangedBelow?
    {space : AddressSpace}
    {number : Nat}
    (found : space.rangedBelow? address = some (library, number)) :
    space.library? number = some library := by
  have taken := (List.takeWhile_prefix _).subset (List.mem_of_getLast? found)
  exact (mem_ranged_iff.mp taken).1

/-- A lookup gives a frame of the nearest library if this contains the address. -/
theorem lookup_of_nearest
    (undeclared : (ofLibraries libraries).lookupExact? address = none)
    (nearest : nearest? Library.start address
      ((complete libraries).filter fun library => !library.exact) = some library) :
    ∃ number, (ofLibraries libraries).library? number = some library ∧
      (ofLibraries libraries).lookup address =
        if library.contains address then frameIn library number address
        else .unknown address := by
  have asked := rangedBelow?_ofLibraries libraries address
  rw [nearest] at asked
  obtain ⟨⟨_, number⟩, found, rfl⟩ := Option.map_eq_some_iff.mp asked
  refine ⟨number, library?_of_rangedBelow? found, ?_⟩
  unfold lookup
  rw [undeclared, found]

/-- A lookup below all libraries gives an unknown frame. -/
theorem lookup_of_nothing
    (undeclared : (ofLibraries libraries).lookupExact? address = none)
    (nothing : nearest? Library.start address
      ((complete libraries).filter fun library => !library.exact) = none) :
    (ofLibraries libraries).lookup address = .unknown address := by
  have asked := rangedBelow?_ofLibraries libraries address
  rw [nothing, Option.map_eq_none_iff] at asked
  unfold lookup
  rw [undeclared, asked]

/-- Only libraries of symbols which stand for themselves are asked about the exact
address. -/
theorem lookupExact?_eq_none
    (unnamed : ∀ library ∈ complete libraries,
      library.exact → library.exactSymbol? address = none) :
    (ofLibraries libraries).lookupExact? address = none := by
  apply List.findSome?_eq_none_iff.mpr
  intro entry member
  obtain ⟨known, exact⟩ := mem_exact_iff.mp member
  have sorted : entry.1 ∈ sortLibraries (complete libraries) := List.mem_of_getElem? known
  rw [unnamed entry.1 ((List.mergeSort_perm _ _).mem_iff.mp sorted) exact]
  rfl

/-! ## Symbols of one address -/

/-- The first of the libraries which are asked about the addresses of symbols only that
has a symbol of an address. -/
def exactAt? (space : AddressSpace) (address : UInt64) : Option (Library × Nat) :=
  space.exact.find? fun entry => entry.1.symbols.any fun symbol => symbol.address == address

/-- The frames which a lookup may give.  A library can have several symbols of one address,
and a search for exactly this address may find any of them. -/
inductive MayGive (space : AddressSpace) (address : UInt64) : Frame → Prop
  | exactly
      {library : Library}
      {number : Nat}
      {symbol : Symbol}
      (asked : space.exactAt? address = some (library, number))
      (listed : symbol ∈ library.symbols)
      (same : symbol.address = address) :
      MayGive space address
        { name := symbol.name
          address
          library := some number
          isVirtual := library.isVirtual }
  | ranged (unasked : space.exactAt? address = none) :
      MayGive space address (space.lookup address)

/-- The frame of an address in a library which is asked about its names only. -/
def exactFrame? (address : UInt64) (entry : Library × Nat) : Option Frame :=
  (entry.1.exactSymbol? address).map fun symbol =>
    { name := symbol.name
      address
      library := some entry.2
      isVirtual := entry.1.isVirtual }

/-- The frame of an address which is the address of a symbol is in the first library which
has one. -/
theorem lookupExact?_eq (space : AddressSpace) (address : UInt64) :
    space.lookupExact? address = (space.exactAt? address).bind (exactFrame? address) := by
  unfold lookupExact? exactAt?
  induction space.exact with
  | nil => rfl
  | cons entry others inductionHypothesis =>
      rw [List.findSome?_cons, List.find?_cons]
      cases found : entry.1.exactSymbol? address with
      | none =>
          have absent : (entry.1.symbols.any fun symbol => symbol.address == address) = false := by
            simpa using Library.exactSymbol?_eq_none_iff.mp found
          rw [absent]
          exact inductionHypothesis
      | some symbol =>
          obtain ⟨listed, same⟩ := Library.mem_of_exactSymbol? found
          have present : (entry.1.symbols.any fun symbol => symbol.address == address) = true :=
            List.any_eq_true.mpr ⟨symbol, listed, beq_iff_eq.mpr same⟩
          rw [present]
          show some _ = exactFrame? address entry
          rw [exactFrame?, found, Option.map_some]

/-- The library which is asked about exactly an address has a symbol of it. -/
theorem exists_symbol_of_exactAt?
    {space : AddressSpace}
    {number : Nat}
    (asked : space.exactAt? address = some (library, number)) :
    (library, number) ∈ space.exact ∧ ∃ symbol, library.exactSymbol? address = some symbol := by
  refine ⟨List.mem_of_find?_eq_some asked, ?_⟩
  cases found : library.exactSymbol? address with
  | some symbol => exact ⟨symbol, rfl⟩
  | none =>
      have present : library.symbols.any (fun symbol => symbol.address == address) = true :=
        List.find?_some (p := fun entry : Library × Nat =>
          entry.1.symbols.any fun symbol => symbol.address == address) asked
      obtain ⟨symbol, listed, same⟩ := List.any_eq_true.mp present
      exact absurd (beq_iff_eq.mp same) (Library.exactSymbol?_eq_none_iff.mp found symbol listed)

/-- No library is asked about exactly an address if there is no frame of it. -/
theorem exactAt?_eq_none_iff {space : AddressSpace} :
    space.exactAt? address = none ↔ space.lookupExact? address = none := by
  rw [lookupExact?_eq]
  cases asked : space.exactAt? address with
  | none => simp
  | some entry =>
      obtain ⟨_, symbol, found⟩ := exists_symbol_of_exactAt? asked
      simp [exactFrame?, found]

/-- A lookup gives one of the frames which it may give. -/
theorem mayGive_lookup (space : AddressSpace) (address : UInt64) :
    space.MayGive address (space.lookup address) := by
  cases asked : space.exactAt? address with
  | none => exact .ranged asked
  | some entry =>
      obtain ⟨library, number⟩ := entry
      obtain ⟨_, symbol, found⟩ := exists_symbol_of_exactAt? asked
      obtain ⟨listed, same⟩ := Library.mem_of_exactSymbol? found
      have exactly := lookupExact?_eq space address
      rw [asked, Option.bind_some, exactFrame?, found, Option.map_some] at exactly
      unfold lookup
      rw [exactly]
      exact .exactly asked listed same

/-! ## Disjoint ranges -/

/-- The library of compiled traces which completes a space is empty. -/
theorem mem_complete (member : library ∈ complete libraries) :
    library ∈ libraries ∨ library = Library.ofRange LibraryKind.jitName 0 0 := by
  unfold complete at member
  split at member
  · exact Or.inl member
  · exact (List.mem_append.mp member).imp_right List.mem_singleton.mp

/-- A space always has a library of compiled traces. -/
theorem exists_jit_of_complete (libraries : List Library) :
    ∃ library ∈ complete libraries, library.kind = .jit := by
  unfold complete
  split
  · rename_i has
    obtain ⟨library, member, jit⟩ := List.any_eq_true.mp has
    exact ⟨library, member, of_decide_eq_true jit⟩
  · exact ⟨_, List.mem_append_right _ List.mem_cons_self, rfl⟩

/-- The libraries with numbers are those of which a space was made. -/
theorem exists_mem_numbered_iff :
    (∃ number, (library, number) ∈ (ofLibraries libraries).numbered) ↔
      library ∈ complete libraries := by
  have sorted : library ∈ (ofLibraries libraries).libraries ↔ library ∈ complete libraries :=
    (List.mergeSort_perm _ _).mem_iff
  rw [← sorted, List.mem_iff_getElem?]
  exact exists_congr fun _ => mem_numbered_iff

/-- The number of compiled traces is the one of the last library of this kind. -/
theorem exists_getLast?_jit (libraries : List Library) :
    ∃ library,
      ((ofLibraries libraries).numbered.filter fun entry => entry.1.kind = .jit).getLast? =
        some (library, (ofLibraries libraries).jitNumber) := by
  obtain ⟨library, member, jit⟩ := exists_jit_of_complete libraries
  obtain ⟨number, numbered⟩ := exists_mem_numbered_iff.mpr member
  have compiled : (library, number) ∈
      (ofLibraries libraries).numbered.filter fun entry => entry.1.kind = .jit :=
    List.mem_filter.mpr ⟨numbered, decide_eq_true jit⟩
  unfold jitNumber
  cases last : ((ofLibraries libraries).numbered.filter
      fun entry => entry.1.kind = .jit).getLast? with
  | none =>
      rw [List.getLast?_eq_none_iff.mp last] at compiled
      cases compiled
  | some entry => exact ⟨entry.1, rfl⟩

/-- The library which completes a space contains nothing. -/
theorem not_contains_jit (address : UInt64) :
    ¬ (Library.ofRange LibraryKind.jitName 0 0).contains address := by
  intro inside
  have below : address < 0 := (Library.contains_iff.mp inside).2
  exact UInt64.not_lt_zero below

/-- Disjoint libraries of a space are disjoint from the one which completes it. -/
theorem apart_complete (apart : libraries.Pairwise Library.Apart) :
    (complete libraries).Pairwise Library.Apart := by
  unfold complete
  split
  · exact apart
  · refine List.pairwise_append.mpr ⟨apart, List.pairwise_singleton _ _, ?_⟩
    intro library _ jit last address both
    cases List.mem_singleton.mp last
    exact not_contains_jit address both.2

/-- Where all libraries have ranges, the libraries of a space do. -/
theorem filter_complete (ranged : ∀ library ∈ libraries, library.exact = false) :
    (complete libraries).filter (fun library => !library.exact) = complete libraries := by
  apply List.filter_eq_self.mpr
  intro library member
  rcases mem_complete member with given | rfl
  · simp [ranged library given]
  · rfl

/-- Where all libraries have ranges, no address stands for itself. -/
theorem lookupExact?_of_ranged (ranged : ∀ library ∈ libraries, library.exact = false) :
    (ofLibraries libraries).lookupExact? address = none := by
  apply lookupExact?_eq_none
  intro library member exact
  rcases mem_complete member with given | rfl
  · rw [ranged library given] at exact
    cases exact
  · cases exact

/-- An address in no library is unknown. -/
theorem lookup_of_not_contains
    (undeclared : (ofLibraries libraries).lookupExact? address = none)
    (outside : ∀ library ∈ (complete libraries).filter fun library => !library.exact,
      ¬ library.contains address) :
    (ofLibraries libraries).lookup address = .unknown address := by
  cases nearest : nearest? Library.start address
      ((complete libraries).filter fun library => !library.exact) with
  | none => exact lookup_of_nothing undeclared nearest
  | some library =>
      obtain ⟨number, _, found⟩ := lookup_of_nearest undeclared nearest
      rw [found, if_neg (outside library (mem_of_nearest? nearest))]

/-- An address in the range of a library which is exposed to it resolves to the
nearest symbol of this library. -/
theorem lookup_of_exposed
    {before after : List Library}
    {added : List (UInt64 × String)}
    (ranged : ∀ library ∈ libraries, library.exact = false)
    (all : complete libraries = before ++ library :: after)
    (symbols : library.Built added)
    (inside : library.contains address)
    (exposed : Exposed Library.start address before after library) :
    ∃ number, (ofLibraries libraries).library? number = some library ∧
      (ofLibraries libraries).lookup address = library.frame added number address := by
  have nearest := exposed.nearest?_eq (Library.contains_iff.mp inside).1
  rw [← all, ← filter_complete ranged] at nearest
  obtain ⟨number, same, found⟩ := lookup_of_nearest (lookupExact?_of_ranged ranged) nearest
  rw [if_pos inside, symbols.frameIn_eq] at found
  exact ⟨number, same, found⟩

/-- An address in the range of a library which is not exposed to it is unknown, and
among disjoint libraries it is an empty one which is asked instead. -/
theorem lookup_of_hidden
    {before after : List Library}
    (ranged : ∀ library ∈ libraries, library.exact = false)
    (apart : libraries.Pairwise Library.Apart)
    (all : complete libraries = before ++ library :: after)
    (inside : library.contains address)
    (hidden : ¬ Exposed Library.start address before after library) :
    (∃ other ∈ before ++ after, other.finish ≤ other.start ∧
      library.start ≤ other.start ∧ other.start ≤ address) ∧
    (ofLibraries libraries).lookup address = .unknown address := by
  obtain ⟨within, below⟩ := Library.contains_iff.mp inside
  obtain ⟨other, elsewhere, nearest, behind, otherWithin⟩ :=
    exists_nearest?_of_not_exposed within hidden
  have disjoint := apart_complete apart
  rw [all] at disjoint
  have apartFrom := Library.apart_of_pairwise disjoint elsewhere
  rw [← all, ← filter_complete ranged] at nearest
  obtain ⟨number, _, found⟩ := lookup_of_nearest (lookupExact?_of_ranged ranged) nearest
  refine ⟨⟨other, elsewhere, ?_, behind, otherWithin⟩, ?_⟩
  · -- its own start would be an address of both libraries
    apply UInt64.not_lt.mp
    intro nonempty
    exact apartFrom other.start
      ⟨Library.contains_iff.mpr ⟨behind, UInt64.lt_of_le_of_lt otherWithin below⟩,
        Library.contains_iff.mpr ⟨UInt64.le_refl _, nonempty⟩⟩
  · rw [found, if_neg fun alsoInside => apartFrom address ⟨inside, alsoInside⟩]

/-- In a space of disjoint libraries, an address in the range of one of them
resolves to the nearest symbol of this one, if the library is exposed to the
address.  If it is not, because an empty library starts between, the address is
unknown, as is an address which is in no range. -/
theorem lookup_of_apart
    (built : ∀ library ∈ libraries, ∃ added, library.Built added)
    (apart : libraries.Pairwise Library.Apart)
    (address : UInt64) :
    (∀ before library after added,
      complete libraries = before ++ library :: after → library.Built added →
        library.contains address →
          (Exposed Library.start address before after library →
            ∃ number, (ofLibraries libraries).library? number = some library ∧
              (ofLibraries libraries).lookup address = library.frame added number address) ∧
          (¬ Exposed Library.start address before after library →
            (∃ other ∈ before ++ after, other.finish ≤ other.start ∧
              library.start ≤ other.start ∧ other.start ≤ address) ∧
            (ofLibraries libraries).lookup address = .unknown address)) ∧
      ((∀ library ∈ libraries, ¬ library.contains address) →
        (ofLibraries libraries).lookup address = .unknown address) := by
  have ranged : ∀ library ∈ libraries, library.exact = false := by
    intro library member
    obtain ⟨added, symbols⟩ := built library member
    exact symbols.exact_eq
  constructor
  · intro before library after added all symbols inside
    exact ⟨lookup_of_exposed ranged all symbols inside, lookup_of_hidden ranged apart all inside⟩
  · intro outside
    apply lookup_of_not_contains (lookupExact?_of_ranged ranged)
    rw [filter_complete ranged]
    intro library member
    rcases mem_complete member with given | rfl
    · exact outside library given
    · exact not_contains_jit address

/-- A library of two functions. -/
def twoFunctions : Library :=
  (Library.ofRange "/opt/libx.so" 0x1000 0x4000).withSymbols
    [(0x2000, "second"), (0x1000, "first")]

/-- The symbols of the two functions. -/
theorem built_twoFunctions :
    twoFunctions.Built ([] ++ [(0x2000, "second"), (0x1000, "first")]) :=
  .symbols (.range _ _ _) _

/-- The last address in front of the second function is in the first one. -/
theorem lookup_of_twoFunctions :
    ∃ number,
      (ofLibraries [twoFunctions]).lookup 0x1fff =
        { name := "first", address := 0x1000, library := some number, isVirtual := false } := by
  have looked := (lookup_of_apart (by simpa using ⟨_, built_twoFunctions⟩)
    (List.pairwise_singleton _ twoFunctions) 0x1fff).1
  have exposed : Exposed Library.start 0x1fff [] [Library.ofRange LibraryKind.jitName 0 0]
      twoFunctions := by
    unfold Exposed
    decide
  obtain ⟨number, _, found⟩ :=
    (looked [] twoFunctions _ _ rfl built_twoFunctions (by decide)).1 exposed
  exact ⟨number, found⟩

/-- A library which starts at address zero is not asked about any of its
addresses: the empty library which completes the space starts there, too. -/
theorem not_lookup_of_start_zero :
    ¬ ∀ libraries : List Library,
      (∀ library ∈ libraries, ∃ added, library.Built added) →
        libraries.Pairwise Library.Apart →
          ∀ library ∈ libraries, ∀ added, library.Built added →
            ∀ address, library.contains address →
              ∃ number, (ofLibraries libraries).library? number = some library ∧
                (ofLibraries libraries).lookup address = library.frame added number address := by
  intro claimed
  let library := (Library.ofRange "/opt/libx.so" 0 0x1000).withSymbols [(0, "first")]
  have built : library.Built ([] ++ [(0, "first")]) := .symbols (.range _ _ _) _
  obtain ⟨number, _, found⟩ := claimed [library] (by simpa using ⟨_, built⟩)
    (List.pairwise_singleton _ library) library List.mem_cons_self _ built 16 (by decide)
  have nearest : nearest? Library.start 16
      ((complete [library]).filter fun library => !library.exact) =
        some (Library.ofRange LibraryKind.jitName 0 0) := by decide
  obtain ⟨_, _, unknown⟩ := lookup_of_nearest (lookupExact?_of_ranged (by decide)) nearest
  rw [if_neg (not_contains_jit 16)] at unknown
  rw [unknown] at found
  have same : (16 : UInt64) = 0 := congrArg Frame.address found
  exact absurd same (by decide)

end AddressSpace
end RuntimeLog
