import RuntimeLog.Proofs.Space.Traces
import RuntimeLog.Stream.Zstd.Decoder

/-!
# Declared addresses

The space of a profile has one library which reaches over all declared native
symbols and one which reaches over all traces with machine code.  Each of them
names what is declared in it, as long as it is the library which is asked.
-/

namespace RuntimeLog

/-! ## Names -/

namespace Library

variable {library : Library} {address : UInt64} {names : AddressMap String}

/-- The address behind an address is the next one, unless there is none. -/
theorem toNat_successor (last : UInt64) :
    (successor last).toNat = min (last.toNat + 1) (UInt64.size - 1) := by
  have bound := last.toNat_lt_size
  unfold successor
  split
  · rename_i room
    rw [UInt64.toNat_add]
    refine (Nat.mod_eq_of_lt room).trans ?_
    show last.toNat + 1 = _
    omega
  · omega

/-- What a library of names is made of. -/
theorem ofNames?_eq_some {name : String} (made : ofNames? name names = some library) :
    ∃ first last, AddressMap.least? names = some first ∧ AddressMap.greatest? names = some last ∧
      library = (ofRange name first (successor last)).withSymbols names.toList := by
  unfold ofNames? at made
  split at made
  · rename_i first last least greatest
    exact ⟨first, last, least, greatest, (Option.some.inj made).symm⟩
  · cases made

/-- Where an address has a name there is a library of names. -/
theorem exists_ofNames? (name : String) (known : address ∈ names) :
    ∃ library, ofNames? name names = some library := by
  have nonempty : names.keys ≠ [] := by
    intro empty
    have listed := Std.ExtTreeMap.mem_keys.mpr known
    rw [empty] at listed
    cases listed
  unfold ofNames? AddressMap.least? AddressMap.greatest?
  rw [List.head?_eq_some_head nonempty, List.getLast?_eq_some_getLast nonempty]
  exact ⟨_, rfl⟩

/-- A library of names is of the kind which its own name tells, and has a range. -/
theorem kind_of_ofNames? {name : String} (made : ofNames? name names = some library) :
    library.kind = LibraryKind.ofPath name ∧ library.exact = false := by
  obtain ⟨first, last, _, _, rfl⟩ := ofNames?_eq_some made
  exact ⟨rfl, rfl⟩

/-- A library of names has a name for the addresses which are named, except for
the greatest one. -/
theorem nameAt?_of_ofNames?
    {name text : String}
    (made : ofNames? name names = some library)
    (named : names[address]? = some text) :
    library.start ≤ address ∧
      library.nameAt? address = if address.toNat + 1 < UInt64.size then some text else none := by
  obtain ⟨first, last, least, greatest, rfl⟩ := ofNames?_eq_some made
  have known : address ∈ names :=
    Std.ExtTreeMap.mem_iff_isSome_getElem?.mpr (by rw [named]; rfl)
  have above := AddressMap.least?_le least known
  have within : address < successor last ↔ address.toNat + 1 < UInt64.size := by
    have below := AddressMap.le_greatest? greatest known
    have bound := last.toNat_lt_size
    rw [UInt64.le_iff_toNat_le] at below
    rw [UInt64.lt_iff_toNat_lt, toNat_successor]
    omega
  have built : ((ofRange name first (successor last)).withSymbols names.toList).Built
      ([] ++ names.toList) := .symbols (.range _ _ _) _
  have nearest : nearest? Prod.fst address names.toList = some (address, text) :=
    AddressMap.nearest?_toList_eq_some_iff.mpr ⟨named, UInt64.le_refl _, fun _ _ below => below⟩
  have inside : ((ofRange name first (successor last)).withSymbols names.toList).contains address =
      decide (address.toNat + 1 < UInt64.size) := by
    simp only [contains, withSymbols, ofRange, above, within, decide_true, Bool.true_and]
  refine ⟨above, ?_⟩
  unfold nameAt?
  rw [inside, built.symbolFor?_eq, List.nil_append, nearest]
  simp [addedSymbol]

/-- A library of names contains no address outside the span of the names. -/
theorem not_contains_of_ofNames?
    {name : String}
    (made : ofNames? name names = some library)
    (outside : ∀ first last, AddressMap.least? names = some first →
      AddressMap.greatest? names = some last → address < first ∨ last < address) :
    ¬ library.contains address := by
  obtain ⟨first, last, least, greatest, rfl⟩ := ofNames?_eq_some made
  intro inside
  obtain ⟨above, below⟩ : first ≤ address ∧ address < successor last := contains_iff.mp inside
  rcases outside first last least greatest with beneath | beyond
  · exact UInt64.not_le.mpr beneath above
  · rw [UInt64.lt_iff_toNat_lt] at beyond
    rw [UInt64.lt_iff_toNat_lt, toNat_successor] at below
    omega

/-- The symbols of a library of names are the names. -/
theorem mem_symbols_of_ofNames?
    {name : String}
    {symbol : Symbol}
    (made : ofNames? name names = some library) :
    symbol ∈ library.symbols ↔
      ∃ text, names[symbol.address]? = some text ∧ addedSymbol (symbol.address, text) = symbol := by
  obtain ⟨first, last, _, _, rfl⟩ := ofNames?_eq_some made
  refine ((List.mergeSort_perm _ _).mem_iff.trans List.mem_map).trans ⟨?_, ?_⟩
  · rintro ⟨entry, member, rfl⟩
    exact ⟨entry.2, Std.ExtTreeMap.mem_toList_iff_getElem?_eq_some.mp member, rfl⟩
  · rintro ⟨text, named, same⟩
    exact ⟨_, Std.ExtTreeMap.mem_toList_iff_getElem?_eq_some.mpr named, same⟩

/-- A library of names has a symbol at every address which is named, and at no
other one. -/
theorem exactSymbol?_of_ofNames?
    {name : String}
    (made : ofNames? name names = some library) :
    library.exactSymbol? address = names[address]?.map fun text => addedSymbol (address, text) := by
  cases found : library.exactSymbol? address with
  | none =>
      cases named : names[address]? with
      | none => rfl
      | some text =>
          have listed : addedSymbol (address, text) ∈ library.symbols :=
            (mem_symbols_of_ofNames? made).mpr ⟨text, named, rfl⟩
          exact absurd rfl (exactSymbol?_eq_none_iff.mp found _ listed)
  | some symbol =>
      obtain ⟨listed, rfl⟩ := mem_of_exactSymbol? found
      obtain ⟨text, named, same⟩ := (mem_symbols_of_ofNames? made).mp listed
      rw [named, Option.map_some, same]

end Library

/-! ## Spaces of profiles -/

namespace AddressSpace

variable {libraries : List Library} {library : Library} {address : UInt64}

/-- The name of an address is the one which the nearest library has for it. -/
theorem name_lookup (undeclared : (ofLibraries libraries).lookupExact? address = none) :
    ((ofLibraries libraries).lookup address).name =
      ((nearest? Library.start address
        ((complete libraries).filter fun library => !library.exact)).bind
          fun library => library.nameAt? address).getD (Text.hex address.toNat) := by
  cases nearest : nearest? Library.start address
      ((complete libraries).filter fun library => !library.exact) with
  | none =>
      rw [lookup_of_nothing undeclared nearest]
      rfl
  | some library =>
      obtain ⟨number, _, found⟩ := lookup_of_nearest undeclared nearest
      rw [found, Option.bind_some, Library.nameAt?]
      split
      · unfold frameIn
        cases library.symbolFor? address <;> rfl
      · rfl

/-- Where only one library has a name for an address, the address has this name if
the library is exposed to it. -/
theorem name_lookup_of_silent
    {before after : List Library}
    (undeclared : (ofLibraries libraries).lookupExact? address = none)
    (all : (complete libraries).filter (fun library => !library.exact) =
      before ++ library :: after)
    (within : library.start ≤ address)
    (silent : ∀ other ∈ before ++ after, other.nameAt? address = none) :
    ((ofLibraries libraries).lookup address).name =
      if Exposed Library.start address before after library then
        (library.nameAt? address).getD (Text.hex address.toNat)
      else Text.hex address.toNat := by
  rw [name_lookup undeclared, all]
  split
  · rename_i exposed
    rw [exposed.nearest?_eq within, Option.bind_some]
  · rename_i hidden
    obtain ⟨other, elsewhere, nearest, _⟩ := exists_nearest?_of_not_exposed within hidden
    rw [nearest, Option.bind_some, silent other elsewhere, Option.getD_none]

/-- The empty library of compiled traces which completes some libraries. -/
def completion (libraries : List Library) : List Library :=
  if libraries.any fun library => library.kind = .jit then []
  else [Library.ofRange LibraryKind.jitName 0 0]

theorem complete_eq (libraries : List Library) :
    complete libraries = libraries ++ completion libraries := by
  unfold complete completion
  split
  · rw [List.append_nil]
  · rfl

/-- The libraries of which the space of a profile is made. -/
def declared (profile : Profile) (libraries : List Library) (forest : Option Forest) :
    List Library :=
  libraries ++ (forest.map Library.ofForest).toList ++
    (Library.ofVirtualNames? profile.virtualNames).toList ++
    (Library.ofNativeNames? profile.nativeNames).toList

/-- Virtual names make a virtual library of their own kind, which has no range. -/
theorem kind_of_ofVirtualNames?
    {names : AddressMap String}
    (made : Library.ofVirtualNames? names = some library) :
    library.kind = .virtual ∧ library.exact ∧ library.isVirtual := by
  obtain ⟨named, same, rfl⟩ := Option.map_eq_some_iff.mp made
  obtain ⟨first, last, _, _, rfl⟩ := Library.ofNames?_eq_some same
  exact ⟨rfl, rfl, rfl⟩

/-- Native names make a library of their own kind, which has a range. -/
theorem kind_of_ofNativeNames?
    {names : AddressMap String}
    (made : Library.ofNativeNames? names = some library) :
    library.kind = .native ∧ library.exact = false :=
  Library.kind_of_ofNames? made

/-- The names of a profile do not complete a space. -/
theorem completion_declared (profile : Profile) (libraries : List Library)
    (forest : Option Forest) :
    completion (declared profile libraries forest) =
      completion (libraries ++ (forest.map Library.ofForest).toList) := by
  have virtual : ((Library.ofVirtualNames? profile.virtualNames).toList.any
      fun library => library.kind = .jit) = false := by
    cases made : Library.ofVirtualNames? profile.virtualNames with
    | none => rfl
    | some library => simp [(kind_of_ofVirtualNames? made).1]
  have native : ((Library.ofNativeNames? profile.nativeNames).toList.any
      fun library => library.kind = .jit) = false := by
    cases made : Library.ofNativeNames? profile.nativeNames with
    | none => rfl
    | some library => simp [(kind_of_ofNativeNames? made).1]
  unfold completion declared
  simp only [List.any_append, virtual, native, Bool.or_false]

/-- The libraries of the space of a profile which have ranges are the given ones and
those of traces and native names. -/
theorem filter_declared (profile : Profile) (libraries : List Library) (forest : Option Forest) :
    (complete (declared profile libraries forest)).filter (fun library => !library.exact) =
      (libraries.filter fun library => !library.exact) ++ (forest.map Library.ofForest).toList ++
        (Library.ofNativeNames? profile.nativeNames).toList ++
          completion (libraries ++ (forest.map Library.ofForest).toList) := by
  have traces : (forest.map Library.ofForest).toList.filter (fun library => !library.exact) =
      (forest.map Library.ofForest).toList := by
    cases forest <;> rfl
  have virtual : (Library.ofVirtualNames? profile.virtualNames).toList.filter
      (fun library => !library.exact) = [] := by
    cases made : Library.ofVirtualNames? profile.virtualNames with
    | none => rfl
    | some library => simp [(kind_of_ofVirtualNames? made).2.1]
  have native : (Library.ofNativeNames? profile.nativeNames).toList.filter
      (fun library => !library.exact) = (Library.ofNativeNames? profile.nativeNames).toList := by
    cases made : Library.ofNativeNames? profile.nativeNames with
    | none => rfl
    | some library => simp [(kind_of_ofNativeNames? made).2]
  have ranged (libraries : List Library) :
      (completion libraries).filter (fun library => !library.exact) = completion libraries := by
    unfold completion
    split <;> rfl
  rw [complete_eq, completion_declared]
  unfold declared
  rw [List.filter_append, List.filter_append, List.filter_append, List.filter_append, ranged,
    traces, virtual, native, List.append_nil]

/-- The libraries without ranges are given ones and the one of virtual names. -/
theorem mem_declared_of_exact
    {profile : Profile}
    {forest : Option Forest}
    (member : library ∈ complete (declared profile libraries forest))
    (exact : library.exact) :
    library ∈ libraries ∨ Library.ofVirtualNames? profile.virtualNames = some library := by
  rcases mem_complete member with listed | rfl
  · rcases List.mem_append.mp listed with others | native
    · rcases List.mem_append.mp others with others | virtual
      · rcases List.mem_append.mp others with given | traces
        · exact Or.inl given
        · obtain ⟨forest, _, rfl⟩ := Option.map_eq_some_iff.mp (Option.mem_toList.mp traces)
          cases exact
      · exact Or.inr (Option.mem_toList.mp virtual)
    · rw [(kind_of_ofNativeNames? (Option.mem_toList.mp native)).2] at exact
      cases exact
  · cases exact

/-- The symbols of a library of virtual names are the declared names. -/
theorem mem_symbols_of_ofVirtualNames?
    {names : AddressMap String}
    {symbol : Symbol}
    (made : Library.ofVirtualNames? names = some library) :
    symbol ∈ library.symbols ↔
      ∃ text, names[symbol.address]? = some text ∧
        Library.addedSymbol (symbol.address, text) = symbol := by
  obtain ⟨named, same, rfl⟩ := Option.map_eq_some_iff.mp made
  show symbol ∈ named.symbols ↔ _
  exact Library.mem_symbols_of_ofNames? same

/-- The names of a library of virtual names are the declared ones. -/
theorem exactSymbol?_of_ofVirtualNames?
    {names : AddressMap String}
    (made : Library.ofVirtualNames? names = some library) :
    library.exactSymbol? address =
      names[address]?.map fun text => Library.addedSymbol (address, text) := by
  obtain ⟨named, same, rfl⟩ := Option.map_eq_some_iff.mp made
  show named.exactSymbol? address = _
  exact Library.exactSymbol?_of_ofNames? same

/-- Where neither the profile nor the given libraries let an address stand for a
name, it does not. -/
theorem lookupExact?_declared
    {profile : Profile}
    {forest : Option Forest}
    (unnamed : ∀ library ∈ libraries, library.exact → library.exactSymbol? address = none)
    (undeclared : profile.virtualNames[address]? = none) :
    (ofLibraries (declared profile libraries forest)).lookupExact? address = none := by
  apply lookupExact?_eq_none
  intro library member exact
  rcases mem_declared_of_exact member exact with given | virtual
  · exact unnamed library given exact
  · rw [exactSymbol?_of_ofVirtualNames? virtual, undeclared, Option.map_none]

/-- The empty library which completes others has no names. -/
theorem nameAt?_completion (member : library ∈ completion libraries) :
    library.nameAt? address = none := by
  unfold completion at member
  split at member
  · cases member
  · rw [List.mem_singleton.mp member]
    exact Library.nameAt?_of_not_contains (not_contains_jit address)

section Declared

variable {forest : Option Forest} {profile : Profile}

/-- Given libraries which do not contain an address have no name for it. -/
theorem nameAt?_given
    (outside : ∀ library ∈ libraries, ¬ library.contains address)
    (member : library ∈ libraries.filter fun library => !library.exact) :
    library.nameAt? address = none :=
  Library.nameAt?_of_not_contains (outside library (List.mem_filter.mp member).1)

/-- An address which only the library of native symbols has a name for is named by
the symbol which is declared for it, if the library is exposed to it. -/
theorem name_lookup_of_native
    [Stream.Decompressor]
    {name : String}
    (made : ∀ traced ∈ forest, traced.Made)
    (outside : ∀ library ∈ libraries, ¬ library.contains address)
    (undeclared :
      (ofLibraries (declared profile libraries forest)).lookupExact? address = none)
    (named : profile.nativeNames[address]? = some name)
    (untraced : ∀ traced ∈ forest, ∀ trace ∈ traced.traces.toList, ¬ trace.contains address) :
    ∃ native, Library.ofNativeNames? profile.nativeNames = some native ∧
      ((ofProfile profile libraries forest).lookup address).name =
        if Exposed Library.start address
            ((libraries.filter fun library => !library.exact) ++
              (forest.map Library.ofForest).toList)
            (completion (libraries ++ (forest.map Library.ofForest).toList)) native ∧
          address.toNat + 1 < UInt64.size then name
        else Text.hex address.toNat := by
  obtain ⟨native, found⟩ := Library.exists_ofNames? LibraryKind.nativeName
    (Std.ExtTreeMap.mem_iff_isSome_getElem?.mpr (by rw [named]; rfl))
  refine ⟨native, found, ?_⟩
  have same : Library.ofNativeNames? profile.nativeNames = some native := found
  obtain ⟨within, nameAt⟩ := Library.nameAt?_of_ofNames? found named
  have all := filter_declared profile libraries forest
  rw [same, Option.toList_some, List.append_assoc, List.singleton_append] at all
  -- the traces may span the address, but none of them has a name for it
  have silent : ∀ other ∈ (libraries.filter fun library => !library.exact) ++
      (forest.map Library.ofForest).toList ++
        completion (libraries ++ (forest.map Library.ofForest).toList),
      other.nameAt? address = none := by
    intro other member
    rcases List.mem_append.mp member with before | after
    · rcases List.mem_append.mp before with supplied | traces
      · exact nameAt?_given outside supplied
      · obtain ⟨traced, present, rfl⟩ := Option.map_eq_some_iff.mp (Option.mem_toList.mp traces)
        exact (made traced present).nameAt?_eq_none (untraced traced present)
    · exact nameAt?_completion after
  have looked := name_lookup_of_silent undeclared all within silent
  rw [nameAt] at looked
  refine looked.trans ?_
  by_cases exposed : Exposed Library.start address
      ((libraries.filter fun library => !library.exact) ++ (forest.map Library.ofForest).toList)
      (completion (libraries ++ (forest.map Library.ofForest).toList)) native
  · by_cases room : address.toNat + 1 < UInt64.size <;> simp [exposed, room]
  · simp [exposed]

/-- An address outside the span of the native symbols is named by the trace which
contains it, if the library of the traces is exposed to it. -/
theorem name_lookup_of_trace
    [Stream.Decompressor]
    {traced : Forest}
    {trace : Trace}
    (made : traced.Made)
    (outside : ∀ library ∈ libraries, ¬ library.contains address)
    (undeclared :
      (ofLibraries (declared profile libraries (some traced))).lookupExact? address = none)
    (containing : traced.traceContaining? address = some trace)
    (elsewhere : ∀ first last, AddressMap.least? profile.nativeNames = some first →
      AddressMap.greatest? profile.nativeNames = some last → address < first ∨ last < address) :
    ∃ symbol, Library.traceSymbol? trace = some symbol ∧
      ((ofProfile profile libraries (some traced)).lookup address).name =
        if Exposed Library.start address (libraries.filter fun library => !library.exact)
          (Library.ofNativeNames? profile.nativeNames).toList (Library.ofForest traced)
        then symbol.name else Text.hex address.toNat := by
  obtain ⟨symbol, named, within, nameAt⟩ := made.nameAt?_eq_some containing
  refine ⟨symbol, named, ?_⟩
  -- the library of traces makes an empty one of this kind superfluous
  have complete : completion (libraries ++ ((some traced).map Library.ofForest).toList) = [] := by
    have jit : (Library.ofForest traced).kind = .jit := rfl
    simp [completion, jit]
  have all := filter_declared profile libraries (some traced)
  rw [complete, List.append_nil, Option.map_some, Option.toList_some, List.append_assoc,
    List.singleton_append] at all
  have silent : ∀ other ∈ (libraries.filter fun library => !library.exact) ++
      (Library.ofNativeNames? profile.nativeNames).toList, other.nameAt? address = none := by
    intro other member
    rcases List.mem_append.mp member with supplied | native
    · exact nameAt?_given outside supplied
    · exact Library.nameAt?_of_not_contains
        (Library.not_contains_of_ofNames? (Option.mem_toList.mp native) elsewhere)
  have looked := name_lookup_of_silent undeclared all within silent
  rw [nameAt, Option.getD_some] at looked
  exact looked

end Declared

/-- In the space of a profile, an address which is in no given library and stands
for no name has the name of the native symbol which is declared for it, or of the
trace which contains it, as long as the library of native symbols, or of traces, is
exposed to it.  It is named by its number if another library starts nearer to it
without containing it, and a native symbol at the greatest address is never found,
because the range of native symbols ends in front of it. -/
theorem lookup_ofProfile
    [Stream.Decompressor]
    {libraries : List Library}
    {forest : Option Forest}
    {profile : Profile}
    {address : UInt64}
    (made : ∀ traced ∈ forest, traced.Made)
    (outside : ∀ library ∈ libraries, ¬ library.contains address)
    (unnamed : ∀ library ∈ libraries, library.exact → library.exactSymbol? address = none)
    (undeclared : profile.virtualNames[address]? = none) :
    (∀ name, profile.nativeNames[address]? = some name →
      (∀ traced ∈ forest, ∀ trace ∈ traced.traces.toList, ¬ trace.contains address) →
        ∃ native, Library.ofNativeNames? profile.nativeNames = some native ∧
          ((ofProfile profile libraries forest).lookup address).name =
            if Exposed Library.start address
                ((libraries.filter fun library => !library.exact) ++
                  (forest.map Library.ofForest).toList)
                (completion (libraries ++ (forest.map Library.ofForest).toList)) native ∧
              address.toNat + 1 < UInt64.size then name
            else Text.hex address.toNat) ∧
      ∀ traced trace, forest = some traced → traced.traceContaining? address = some trace →
        (∀ first last, AddressMap.least? profile.nativeNames = some first →
          AddressMap.greatest? profile.nativeNames = some last →
            address < first ∨ last < address) →
          ∃ symbol, Library.traceSymbol? trace = some symbol ∧
            ((ofProfile profile libraries forest).lookup address).name =
              if Exposed Library.start address (libraries.filter fun library => !library.exact)
                (Library.ofNativeNames? profile.nativeNames).toList (Library.ofForest traced)
              then symbol.name else Text.hex address.toNat := by
  have exactly (forest : Option Forest) :
      (ofLibraries (declared profile libraries forest)).lookupExact? address = none :=
    lookupExact?_declared unnamed undeclared
  constructor
  · intro name named untraced
    exact name_lookup_of_native made outside (exactly forest) named untraced
  · rintro traced trace rfl containing elsewhere
    exact name_lookup_of_trace (made traced rfl) outside (exactly _) containing elsewhere

/-- A profile which declares one native symbol. -/
def declaring (address : UInt64) (name : String) : Profile :=
  (Profile.start Forest.stitchedHeader).nameNative address name

/-- A library without symbols. -/
def stripped : Library :=
  Library.ofRange "/opt/libx.so" 0x1000 0x2000

attribute [local instance] Stream.Zstd.decompressor

/-- Behind a library, a declared symbol has its name, and in front of it, the
machine code of a bridge has the name of this trace. -/
theorem lookup_ofProfile_of_stitchedLog :
    ((ofProfile (declaring 0x3000 "main") [stripped] none).lookup 0x3000).name = "main" ∧
      ∃ reader : LogReader Jitlog.format,
        LogReader.Reached (.ofBytes Forest.stitchedLog) 16 Forest.stitchedRecords.reverse reader ∧
        ∃ trace symbol, trace.id = 2 ∧ Library.traceSymbol? trace = some symbol ∧
          ((ofProfile (declaring 0x3000 "main") [stripped] (some reader.model)).lookup 80).name =
            symbol.name := by
  have unnamed (address : UInt64) :
      ∀ library ∈ [stripped], library.exact → library.exactSymbol? address = none := by
    simp [stripped, Library.ofRange]
  constructor
  · have untraced : ∀ traced ∈ (none : Option Forest), ∀ trace ∈ traced.traces.toList,
        ¬ trace.contains 0x3000 := by simp
    have outside : ∀ library ∈ [stripped], ¬ library.contains 0x3000 := by decide
    have made : ∀ traced ∈ (none : Option Forest), traced.Made := by simp
    have looked := lookup_ofProfile made outside (unnamed _)
      (show (declaring 0x3000 "main").virtualNames[0x3000]? = none from rfl)
    obtain ⟨native, made, named⟩ := looked.1 "main" rfl untraced
    cases made
    exact named
  · obtain ⟨reader, reached, _, containing⟩ := Forest.reached_stitchedLog
    obtain ⟨trace, found, same⟩ := Option.map_eq_some_iff.mp containing
    have made : ∀ traced ∈ some reader.model, traced.Made := by
      intro traced present
      cases present
      exact .reached reached
    have outside : ∀ library ∈ [stripped], ¬ library.contains 80 := by decide
    have looked := lookup_ofProfile made outside (unnamed _)
      (show (declaring 0x3000 "main").virtualNames[80]? = none from rfl)
    have before : ∀ first last,
        AddressMap.least? (declaring 0x3000 "main").nativeNames = some first →
          AddressMap.greatest? (declaring 0x3000 "main").nativeNames = some last →
            80 < first ∨ last < 80 := by
      intro first last least _
      have known : AddressMap.least? (declaring 0x3000 "main").nativeNames = some 0x3000 := rfl
      cases known.symm.trans least
      exact Or.inl (by decide)
    obtain ⟨symbol, named, resolved⟩ := looked.2 reader.model trace rfl found before
    have mapped : ∀ library ∈ [stripped].filter fun library => !library.exact,
        ¬ library.start ≤ 80 := by decide
    have native : ∀ library ∈
        (Library.ofNativeNames? (declaring 0x3000 "main").nativeNames).toList,
          ¬ library.start ≤ 80 := by decide
    exact ⟨reader, reached, trace, symbol, same, named, resolved.trans (if_pos
      ⟨fun library member nearer => absurd nearer (mapped library member),
        fun library member nearer => absurd nearer (native library member)⟩)⟩

/-- A native symbol at address zero is lost: the empty library which completes the
space starts there, too, and is asked instead. -/
theorem not_lookup_of_symbol_at_zero :
    ¬ ∀ (libraries : List Library) (profile : Profile) (forest : Option Forest) (address : UInt64),
      (∀ traced ∈ forest, traced.Made) →
        (∀ library ∈ libraries, ¬ library.contains address) →
          (∀ library ∈ libraries, library.exact → library.exactSymbol? address = none) →
            profile.virtualNames[address]? = none →
              (∀ name, profile.nativeNames[address]? = some name →
                (∀ traced ∈ forest, ∀ trace ∈ traced.traces.toList, ¬ trace.contains address) →
                  ((ofProfile profile libraries forest).lookup address).name = name) ∧
              ∀ traced trace, forest = some traced →
                traced.traceContaining? address = some trace →
                  (∀ first last, AddressMap.least? profile.nativeNames = some first →
                    AddressMap.greatest? profile.nativeNames = some last →
                      address < first ∨ last < address) →
                    ∃ symbol, Library.traceSymbol? trace = some symbol ∧
                      ((ofProfile profile libraries forest).lookup address).name = symbol.name := by
  intro claimed
  have named := (claimed [] (declaring 0 "main") none 0 (by simp) (by simp) (by simp) rfl).1
    "main" rfl (by simp)
  have nearest : nearest? Library.start 0
      ((complete (declared (declaring 0 "main") [] none)).filter fun library => !library.exact) =
        some (Library.ofRange LibraryKind.jitName 0 0) := by
    rw [filter_declared]
    decide
  have exactly : (ofLibraries (declared (declaring 0 "main") [] none)).lookupExact? 0 = none :=
    lookupExact?_declared (by simp) rfl
  have unknown := name_lookup exactly
  rw [nearest, Option.bind_some, Library.nameAt?_of_not_contains (not_contains_jit 0)] at unknown
  exact absurd (named.symm.trans unknown) (by decide)

end AddressSpace
end RuntimeLog
