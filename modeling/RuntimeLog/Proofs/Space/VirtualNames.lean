import RuntimeLog.Proofs.Space.Declared

/-!
# Names which stand for addresses

The library of interpreter level functions is asked about the addresses of its
names only.  It takes a place among the other libraries and shifts their numbers;
nothing else which a space tells about other addresses depends on it.
-/

namespace RuntimeLog

/-- A frame whose library has another number. -/
def Frame.renumbered (renumber : Nat → Nat) (frame : Frame) : Frame :=
  { frame with library := frame.library.map renumber }

/-- A profile without its virtual names. -/
def Profile.withoutVirtualNames (profile : Profile) : Profile :=
  { profile with virtualNames := ∅ }

namespace AddressSpace

/-! ## Renumbered libraries -/

/-- A space which has the ranges of another one under other numbers, in the same
order, and maybe further libraries without ranges. -/
structure Renumbers (renumber : Nat → Nat) (space plain : AddressSpace) : Prop where
  increasing : ∀ {first second}, first < second → renumber first < renumber second
  library?_eq : ∀ number, space.library? (renumber number) = plain.library? number
  ranged_eq : space.ranged = plain.ranged.map (Prod.map id renumber)
  jitNumber_eq : space.jitNumber = renumber plain.jitNumber

variable {renumber : Nat → Nat} {space plain : AddressSpace} {address : UInt64} {frame : Frame}

theorem Renumbers.refl (space : AddressSpace) : Renumbers id space space where
  increasing := id
  library?_eq _ := rfl
  ranged_eq := by simp
  jitNumber_eq := rfl

namespace Renumbers

variable (renumbers : Renumbers renumber space plain)

include renumbers

/-- Libraries with different numbers keep different numbers. -/
theorem eq_of_renumber_eq {first second : Nat} (same : renumber first = renumber second) :
    first = second := by
  rcases Nat.lt_trichotomy first second with before | equal | behind
  · exact absurd same (Nat.ne_of_lt (renumbers.increasing before))
  · exact equal
  · exact absurd same.symm (Nat.ne_of_lt (renumbers.increasing behind))

/-- The same library is asked about an address. -/
theorem rangedBelow?_eq (address : UInt64) :
    space.rangedBelow? address = (plain.rangedBelow? address).map (Prod.map id renumber) := by
  unfold rangedBelow?
  rw [renumbers.ranged_eq, List.takeWhile_map, List.getLast?_map]
  rfl

/-- An address about which the same library is asked exactly in both spaces, or none,
resolves to the same frame. -/
theorem lookup_eq
    (exactly : space.exactAt? address = (plain.exactAt? address).map (Prod.map id renumber)) :
    space.lookup address = (plain.lookup address).renumbered renumber := by
  have named : space.lookupExact? address =
      (plain.lookupExact? address).map (Frame.renumbered renumber) := by
    rw [lookupExact?_eq, lookupExact?_eq, exactly]
    cases plain.exactAt? address with
    | none => rfl
    | some entry => simp [exactFrame?, Frame.renumbered, Function.comp_def]
  unfold lookup
  rw [named, renumbers.rangedBelow?_eq]
  cases plain.lookupExact? address with
  | some frame => rfl
  | none =>
      cases plain.rangedBelow? address with
      | none => rfl
      | some entry =>
          obtain ⟨library, number⟩ := entry
          simp only [Option.map_none, Option.map_some, Prod.map_apply, id_eq]
          split
          · unfold frameIn
            cases library.symbolFor? address <;> rfl
          · rfl

/-- The same frames may be given, whichever symbols are found. -/
theorem mayGive_iff
    (exactly : space.exactAt? address = (plain.exactAt? address).map (Prod.map id renumber)) :
    space.MayGive address frame ↔
      ∃ found, plain.MayGive address found ∧ frame = found.renumbered renumber := by
  constructor
  · intro given
    cases given with
    | exactly asked listed same =>
        rw [exactly] at asked
        obtain ⟨⟨library, number⟩, here, renumbered⟩ := Option.map_eq_some_iff.mp asked
        cases renumbered
        exact ⟨_, .exactly here listed same, rfl⟩
    | ranged unasked =>
        rw [exactly, Option.map_eq_none_iff] at unasked
        exact ⟨_, .ranged unasked, renumbers.lookup_eq exactly⟩
  · rintro ⟨found, given, rfl⟩
    cases given with
    | exactly asked listed same =>
        rw [asked] at exactly
        exact .exactly exactly listed same
    | ranged unasked =>
        rw [← renumbers.lookup_eq exactly]
        rw [unasked] at exactly
        exact .ranged exactly

/-- The same frames are compiled code. -/
theorem isJit_eq (frame : Frame) : space.isJit (frame.renumbered renumber) = plain.isJit frame := by
  unfold isJit Frame.renumbered
  rw [renumbers.jitNumber_eq, Bool.eq_iff_iff, beq_iff_eq, beq_iff_eq]
  cases frame.library with
  | none => simp
  | some number =>
      simp only [Option.map_some, Option.some.injEq]
      exact ⟨renumbers.eq_of_renumber_eq, congrArg renumber⟩

/-- The same frames are external. -/
theorem isExternal_eq (frame : Frame) :
    space.isExternal (frame.renumbered renumber) = plain.isExternal frame := by
  unfold isExternal Frame.renumbered
  cases frame.library with
  | none => rfl
  | some number => simp [renumbers.library?_eq]

/-- The same overlaps are found. -/
theorem overlaps_eq : space.overlaps = plain.overlaps := by
  unfold overlaps
  rw [renumbers.ranged_eq, List.map_map]
  rfl

end Renumbers

/-! ## One more library -/

/-- The number of a library after another one took a place. -/
def makeRoom (place number : Nat) : Nat :=
  if number < place then number else number + 1

theorem makeRoom_lt_makeRoom {place first second : Nat} (before : first < second) :
    makeRoom place first < makeRoom place second := by
  unfold makeRoom
  split <;> split <;> omega

section Insertion

variable {lower upper : List Library} {library : Library}

theorem numbered_append (lower upper : List Library) :
    (⟨lower ++ upper⟩ : AddressSpace).numbered = lower.zipIdx ++ upper.zipIdx lower.length := by
  unfold numbered
  rw [List.zipIdx_append, Nat.zero_add]

/-- One more library gets the number of its place, and the others make room. -/
theorem numbered_insert (lower upper : List Library) (library : Library) :
    (⟨lower ++ library :: upper⟩ : AddressSpace).numbered =
      lower.zipIdx.map (Prod.map id (makeRoom lower.length)) ++
        (library, lower.length) ::
          (upper.zipIdx lower.length).map (Prod.map id (makeRoom lower.length)) := by
  have before : lower.zipIdx.map (Prod.map id (makeRoom lower.length)) = lower.zipIdx := by
    refine (List.map_congr_left ?_).trans (List.map_id _)
    rintro ⟨other, number⟩ member
    have inside := (List.mem_zipIdx member).2.1
    simp [makeRoom]
    omega
  have behind : (upper.zipIdx lower.length).map (Prod.map id (makeRoom lower.length)) =
      upper.zipIdx (lower.length + 1) := by
    rw [Nat.add_comm, ← List.map_snd_add_zipIdx_eq_zipIdx]
    apply List.map_congr_left
    rintro ⟨other, number⟩ member
    have beyond := (List.mem_zipIdx member).1
    simp [makeRoom]
    omega
  rw [numbered_append, List.zipIdx_cons, before, behind]

/-- Where one more library is not wanted, the same libraries are, renumbered. -/
theorem filter_numbered_insert
    (lower upper : List Library)
    (wanted : Library → Bool)
    (unwanted : wanted library = false) :
    ((⟨lower ++ library :: upper⟩ : AddressSpace).numbered.filter fun entry => wanted entry.1) =
      ((⟨lower ++ upper⟩ : AddressSpace).numbered.filter fun entry => wanted entry.1).map
        (Prod.map id (makeRoom lower.length)) := by
  rw [numbered_insert, numbered_append, List.filter_append,
    List.filter_cons_of_neg (by simp [unwanted]), List.filter_map, List.filter_map,
    ← List.map_append, ← List.filter_append]
  rfl

/-- A library without a range renumbers the others. -/
theorem renumbers_insert
    (exact : library.exact)
    (interpreted : library.kind ≠ .jit)
    (compiled : ∃ last,
      ((⟨lower ++ upper⟩ : AddressSpace).numbered.filter fun entry =>
        entry.1.kind = .jit).getLast? = some last) :
    Renumbers (makeRoom lower.length) ⟨lower ++ library :: upper⟩ ⟨lower ++ upper⟩ where
  increasing := makeRoom_lt_makeRoom
  library?_eq number := by
    unfold library? makeRoom
    split
    · rename_i before
      rw [List.getElem?_append_left before, List.getElem?_append_left before]
    · rename_i notBefore
      rw [List.getElem?_append_right (by omega), List.getElem?_append_right (by omega),
        Nat.sub_add_comm (by omega), List.getElem?_cons_succ]
  ranged_eq :=
    filter_numbered_insert lower upper (fun library => !library.exact) (by simp [exact])
  jitNumber_eq := by
    obtain ⟨last, found⟩ := compiled
    unfold jitNumber
    rw [filter_numbered_insert lower upper (fun library => library.kind = .jit)
      (by simp [interpreted]), List.getLast?_map, found]
    rfl

/-- One more library which has no symbol of an address is not asked about exactly this
address. -/
theorem exactAt?_insert (unnamed : ∀ symbol ∈ library.symbols, symbol.address ≠ address) :
    (⟨lower ++ library :: upper⟩ : AddressSpace).exactAt? address =
      ((⟨lower ++ upper⟩ : AddressSpace).exactAt? address).map
        (Prod.map id (makeRoom lower.length)) := by
  have unwanted : (library.exact && library.symbols.any fun symbol =>
      symbol.address == address) = false := by
    rw [Bool.and_eq_false_iff, List.any_eq_false]
    exact .inr fun symbol listed same => unnamed symbol listed (beq_iff_eq.mp same)
  have inserted := filter_numbered_insert lower upper
    (fun library => library.exact && library.symbols.any fun symbol => symbol.address == address)
    unwanted
  unfold exactAt? AddressSpace.exact
  rw [← List.head?_filter, ← List.head?_filter, List.filter_filter, List.filter_filter]
  simp only [Bool.and_comm] at inserted ⊢
  rw [inserted, List.head?_map]

/-- The first libraries of a space are asked first. -/
theorem exactAt?_append (lower upper : List Library) (address : UInt64) :
    (⟨lower ++ upper⟩ : AddressSpace).exactAt? address =
      ((⟨lower⟩ : AddressSpace).exactAt? address).or
        (((upper.zipIdx lower.length).filter fun entry => entry.1.exact).find? fun entry =>
          entry.1.symbols.any fun symbol => symbol.address == address) := by
  unfold exactAt? AddressSpace.exact
  rw [numbered_append, List.filter_append, List.find?_append]
  rfl

/-- One more library which has a symbol of an address is asked about it, unless one in front
of it is. -/
theorem exactAt?_insert_of_listed
    {symbol : Symbol}
    (exact : library.exact)
    (listed : symbol ∈ library.symbols)
    (same : symbol.address = address) :
    (⟨lower ++ library :: upper⟩ : AddressSpace).exactAt? address =
      ((⟨lower⟩ : AddressSpace).exactAt? address).or (some (library, lower.length)) := by
  have present : (library.symbols.any fun symbol => symbol.address == address) = true :=
    List.any_eq_true.mpr ⟨symbol, listed, beq_iff_eq.mpr same⟩
  rw [exactAt?_append, List.zipIdx_cons, List.filter_cons, if_pos exact, List.find?_cons, present]

/-- The library which is asked about exactly an address is one of the space. -/
theorem mem_of_exactAt?
    {libraries : List Library}
    {number : Nat}
    (asked : (⟨libraries⟩ : AddressSpace).exactAt? address = some (library, number)) :
    library ∈ libraries ∧ library.exact := by
  obtain ⟨known, exact⟩ := mem_exact_iff.mp (exists_symbol_of_exactAt? asked).1
  exact ⟨List.mem_of_getElem? known, exact⟩

end Insertion

/-! ## Virtual names -/

section VirtualNames

variable {profile : Profile} {libraries : List Library} {forest : Option Forest}

/-- The libraries of the space of a profile, those with virtual names between the
others. -/
theorem complete_declared (profile : Profile) (libraries : List Library) (forest : Option Forest) :
    complete (declared profile libraries forest) =
      (libraries ++ (forest.map Library.ofForest).toList) ++
        ((Library.ofVirtualNames? profile.virtualNames).toList ++
          ((Library.ofNativeNames? profile.nativeNames).toList ++
            completion (libraries ++ (forest.map Library.ofForest).toList))) := by
  rw [complete_eq, completion_declared]
  simp only [declared, List.append_assoc]

/-- The libraries of the space without virtual names. -/
theorem complete_declared_withoutVirtualNames (profile : Profile) (libraries : List Library)
    (forest : Option Forest) :
    complete (declared profile.withoutVirtualNames libraries forest) =
      (libraries ++ (forest.map Library.ofForest).toList) ++
        ((Library.ofNativeNames? profile.nativeNames).toList ++
          completion (libraries ++ (forest.map Library.ofForest).toList)) := by
  rw [complete_declared,
    show Library.ofVirtualNames? profile.withoutVirtualNames.virtualNames = none from rfl,
    Option.toList_none, List.nil_append]
  rfl

/-- The library of virtual names takes a place among the others: in front of it are
libraries which start no later, and those without a range behind it start later. -/
theorem exists_insertion
    (libraries : List Library)
    (forest : Option Forest)
    (made : Library.ofVirtualNames? profile.virtualNames = some library) :
    ∃ lower upper,
      ofProfile profile libraries forest = ⟨lower ++ library :: upper⟩ ∧
      ofProfile profile.withoutVirtualNames libraries forest = ⟨lower ++ upper⟩ ∧
      (∀ other ∈ lower, other.start ≤ library.start) ∧
      ∀ other ∈ upper, other.exact → library.start < other.start := by
  have all := complete_declared profile libraries forest
  rw [made, Option.toList_some, List.singleton_append] at all
  have plain := complete_declared_withoutVirtualNames profile libraries forest
  obtain ⟨lower, upper, inserted, others, level⟩ := exists_mergeSort_insert Library.start
    (libraries ++ (forest.map Library.ofForest).toList)
    ((Library.ofNativeNames? profile.nativeNames).toList ++
      completion (libraries ++ (forest.map Library.ofForest).toList)) library
  have sorted : (lower ++ library :: upper).Pairwise fun left right =>
      left.start ≤ right.start := inserted ▸ pairwise_mergeSort _
  obtain ⟨_, behind, before⟩ := List.pairwise_append.mp sorted
  refine ⟨lower, upper, congrArg AddressSpace.mk ((congrArg sortLibraries all).trans inserted),
    congrArg AddressSpace.mk ((congrArg sortLibraries plain).trans others),
    fun other member => before other member library List.mem_cons_self, ?_⟩
  intro other member exact
  refine UInt64.lt_of_le_of_ne ((List.pairwise_cons.mp behind).1 other member) fun same => ?_
  -- the libraries which are added behind the one of virtual names have ranges
  rcases List.mem_append.mp (level other member same.symm) with native | completing
  · rw [(kind_of_ofNativeNames? (Option.mem_toList.mp native)).2] at exact
    cases exact
  · unfold completion at completing
    split at completing
    · cases completing
    · cases List.mem_singleton.mp completing
      cases exact

/-- The space of a profile has the ranges of the space without virtual names, and the same
library is asked about exactly an address without a virtual name in both. -/
theorem exists_renumbers (profile : Profile) (libraries : List Library)
    (forest : Option Forest) :
    ∃ renumber,
      Renumbers renumber (ofProfile profile libraries forest)
        (ofProfile profile.withoutVirtualNames libraries forest) ∧
      ∀ address, profile.virtualNames[address]? = none →
        (ofProfile profile libraries forest).exactAt? address =
          ((ofProfile profile.withoutVirtualNames libraries forest).exactAt? address).map
            (Prod.map id renumber) := by
  cases made : Library.ofVirtualNames? profile.virtualNames with
  | none =>
      have all := complete_declared profile libraries forest
      rw [made, Option.toList_none, List.nil_append] at all
      have plain := complete_declared_withoutVirtualNames profile libraries forest
      have same : ofProfile profile libraries forest =
          ofProfile profile.withoutVirtualNames libraries forest :=
        congrArg (fun libraries => AddressSpace.mk (sortLibraries libraries)) (all.trans plain.symm)
      refine ⟨id, same ▸ .refl _, fun address _ => ?_⟩
      rw [same]
      cases (ofProfile profile.withoutVirtualNames libraries forest).exactAt? address <;> simp
  | some library =>
      obtain ⟨kind, exact, _⟩ := kind_of_ofVirtualNames? made
      obtain ⟨lower, upper, full, rest, _⟩ := exists_insertion libraries forest made
      obtain ⟨last, compiled⟩ := exists_getLast?_jit
        (declared profile.withoutVirtualNames libraries forest)
      rw [show ofLibraries (declared profile.withoutVirtualNames libraries forest) = _ from rest]
        at compiled
      rw [full, rest]
      refine ⟨makeRoom lower.length, renumbers_insert exact (by simp [kind]) ⟨_, compiled⟩, ?_⟩
      intro address undeclared
      apply exactAt?_insert
      rw [← Library.exactSymbol?_eq_none_iff, exactSymbol?_of_ofVirtualNames? made, undeclared,
        Option.map_none]

/-- The library of virtual names starts with the first of them. -/
theorem start_of_ofVirtualNames?
    {names : AddressMap String}
    (made : Library.ofVirtualNames? names = some library) :
    library.start ∈ names ∧ ∀ declared ∈ names, library.start ≤ declared := by
  obtain ⟨named, same, rfl⟩ := Option.map_eq_some_iff.mp made
  obtain ⟨first, last, least, _, rfl⟩ := Library.ofNames?_eq_some same
  exact ⟨Std.ExtTreeMap.mem_keys.mp (List.mem_of_head? least), fun _ known =>
    AddressMap.least?_le least known⟩

/-- A library is asked about an address with a virtual name.  It is the one which is asked
without virtual names, if this starts no later than all of these, and the one of the
virtual names otherwise. -/
theorem exactAt?_of_virtualName
    {name : String}
    (libraries : List Library)
    (forest : Option Forest)
    (named : profile.virtualNames[address]? = some name) :
    ∃ library number, Library.ofVirtualNames? profile.virtualNames = some library ∧
      (ofProfile profile libraries forest).exactAt? address =
        (((ofProfile profile.withoutVirtualNames libraries forest).exactAt? address).filter
          fun entry => entry.1.start ≤ library.start).or (some (library, number)) := by
  obtain ⟨names, made⟩ := Library.exists_ofNames? LibraryKind.virtualName
    (Std.ExtTreeMap.mem_iff_isSome_getElem?.mpr (by rw [named]; rfl))
  obtain ⟨library, virtual⟩ : ∃ library,
      Library.ofVirtualNames? profile.virtualNames = some library :=
    ⟨_, congrArg (Option.map _) made⟩
  obtain ⟨lower, upper, full, plain, before, behind⟩ := exists_insertion libraries forest virtual
  refine ⟨library, lower.length, virtual, ?_⟩
  have listed : Library.addedSymbol (address, name) ∈ library.symbols :=
    (mem_symbols_of_ofVirtualNames? virtual).mpr ⟨name, named, rfl⟩
  have inserted : (⟨lower ++ library :: upper⟩ : AddressSpace).exactAt? address =
      ((⟨lower⟩ : AddressSpace).exactAt? address).or (some (library, lower.length)) :=
    exactAt?_insert_of_listed (kind_of_ofVirtualNames? virtual).2.1 listed rfl
  rw [full, plain, inserted, exactAt?_append]
  cases asked : (⟨lower⟩ : AddressSpace).exactAt? address with
  | some entry =>
      have early := before entry.1 (mem_of_exactAt? asked).1
      rw [Option.some_or, Option.some_or, Option.filter, if_pos (decide_eq_true early),
        Option.some_or]
  | none =>
      rw [Option.none_or, Option.none_or]
      cases later : ((upper.zipIdx lower.length).filter fun entry => entry.1.exact).find?
          fun entry => entry.1.symbols.any fun symbol => symbol.address == address with
      | none => rfl
      | some entry =>
          obtain ⟨member, exact⟩ := List.mem_filter.mp (List.mem_of_find?_eq_some later)
          have late := behind entry.1 (List.fst_mem_of_mem_zipIdx member) exact
          rw [Option.filter, if_neg (by simpa using late), Option.none_or]

/-- No library which is asked before the one of the virtual names lets an address stand for
another name: the one which is asked without virtual names starts later than the first of
these, or it agrees with the name. -/
def Uncontested
    (profile : Profile)
    (libraries : List Library)
    (forest : Option Forest)
    (address : UInt64)
    (name : String) : Prop :=
  ∀ library number,
    (ofProfile profile.withoutVirtualNames libraries forest).exactAt? address =
      some (library, number) →
    (∀ declared ∈ profile.virtualNames, library.start ≤ declared) →
    ∀ symbol ∈ library.symbols, symbol.address = address →
      symbol.name = name ∧ library.isVirtual

/-- Where all given libraries have ranges, no virtual name is contested. -/
theorem uncontested_of_ranged
    (ranged : ∀ library ∈ libraries, library.exact = false)
    (address : UInt64)
    (name : String) :
    Uncontested profile libraries forest address name := by
  intro library number asked
  obtain ⟨member, exact⟩ := mem_of_exactAt? asked
  rcases mem_declared_of_exact ((List.mergeSort_perm _ _).mem_iff.mp member) exact with given | own
  · rw [ranged library given] at exact
    cases exact
  · cases own

/-- An address with a virtual name stands for this name, whichever symbol is found for it,
exactly if the name is not contested. -/
theorem uncontested_iff
    {name : String}
    (named : profile.virtualNames[address]? = some name) :
    Uncontested profile libraries forest address name ↔
      ∀ frame, (ofProfile profile libraries forest).MayGive address frame →
        ∃ number, frame = { name, address, library := some number, isVirtual := true } := by
  obtain ⟨own, place, virtual, asked⟩ :=
    exactAt?_of_virtualName libraries forest named
  obtain ⟨known, first⟩ := start_of_ofVirtualNames? virtual
  constructor
  · intro uncontested frame given
    cases given with
    | @exactly library number symbol here listed same =>
        refine ⟨number, ?_⟩
        rw [asked, Option.or_eq_some_iff, Option.filter_eq_some_iff] at here
        rcases here with ⟨before, early⟩ | ⟨_, behind⟩
        · have below (declared) (member : declared ∈ profile.virtualNames) :=
            UInt64.le_trans (of_decide_eq_true early) (first declared member)
          obtain ⟨sameName, isVirtual⟩ := uncontested library number before below symbol listed same
          rw [sameName, isVirtual]
        · cases behind
          obtain ⟨text, declared, added⟩ := (mem_symbols_of_ofVirtualNames? virtual).mp listed
          rw [same, named] at declared
          cases declared
          rw [(kind_of_ofVirtualNames? virtual).2.2, ← added]
          rfl
    | ranged unasked =>
        rw [asked, Option.or_eq_none_iff] at unasked
        cases unasked.2
  · intro all library number before below symbol listed same
    have here : (ofProfile profile libraries forest).exactAt? address = some (library, number) := by
      have early : library.start ≤ own.start := below own.start known
      rw [asked, before, Option.filter, if_pos (decide_eq_true early), Option.some_or]
    obtain ⟨_, equal⟩ := all _ (.exactly here listed same)
    exact ⟨congrArg Frame.name equal, congrArg Frame.isVirtual equal⟩

/-- Virtual names extend a space and change nothing else.  An address with a virtual name
resolves to this name exactly if no given library which is asked before lets it stand for
another one.  Every other address resolves to the same frame as without virtual names, in
the same library under another number, it is compiled or external code if it was, and the
same overlaps are found.  All this holds whichever symbols of an address are found. -/
theorem conservative_virtualNames
    (profile : Profile)
    (libraries : List Library)
    (forest : Option Forest) :
    (∀ address name, profile.virtualNames[address]? = some name →
      (Uncontested profile libraries forest address name →
        ∃ number, (ofProfile profile libraries forest).lookup address =
          { name, address, library := some number, isVirtual := true }) ∧
      (Uncontested profile libraries forest address name ↔
        ∀ frame, (ofProfile profile libraries forest).MayGive address frame →
          ∃ number, frame = { name, address, library := some number, isVirtual := true })) ∧
    (∃ renumber : Nat → Nat,
      (∀ first second, first < second → renumber first < renumber second) ∧
      (∀ number, (ofProfile profile libraries forest).library? (renumber number) =
        (ofProfile profile.withoutVirtualNames libraries forest).library? number) ∧
      ∀ address, profile.virtualNames[address]? = none →
        (∃ found frame,
          (ofProfile profile.withoutVirtualNames libraries forest).lookup address = found ∧
          (ofProfile profile libraries forest).lookup address = frame ∧
          frame = found.renumbered renumber) ∧
        (∀ frame, (ofProfile profile libraries forest).MayGive address frame ↔
          ∃ found, (ofProfile profile.withoutVirtualNames libraries forest).MayGive address found ∧
            frame = found.renumbered renumber) ∧
        ∀ found, (ofProfile profile.withoutVirtualNames libraries forest).MayGive address found →
          (ofProfile profile libraries forest).isJit (found.renumbered renumber) =
            (ofProfile profile.withoutVirtualNames libraries forest).isJit found ∧
          (ofProfile profile libraries forest).isExternal (found.renumbered renumber) =
            (ofProfile profile.withoutVirtualNames libraries forest).isExternal found) ∧
    (ofProfile profile libraries forest).overlaps =
      (ofProfile profile.withoutVirtualNames libraries forest).overlaps := by
  obtain ⟨renumber, renumbers, exactly⟩ := exists_renumbers profile libraries forest
  refine ⟨?_, ?_, renumbers.overlaps_eq⟩
  · intro address name named
    exact ⟨fun uncontested => (uncontested_iff named).mp uncontested _ (mayGive_lookup _ address),
      uncontested_iff named⟩
  · refine ⟨renumber, fun _ _ => renumbers.increasing, renumbers.library?_eq, ?_⟩
    intro address undeclared
    have same := exactly address undeclared
    exact ⟨⟨_, _, rfl, rfl, renumbers.lookup_eq same⟩, fun _ => renumbers.mayGive_iff same,
      fun _ _ => ⟨renumbers.isJit_eq _, renumbers.isExternal_eq _⟩⟩

/-- A profile which declares one virtual address. -/
def declaringSeven (name : String) : Profile :=
  { Profile.start Forest.stitchedHeader with virtualNames := (∅ : AddressMap String).insert 7 name }

/-- The library of a profile which declares one virtual address. -/
def sevenLibrary (name : String) : Library :=
  { Library.ofRange LibraryKind.virtualName 7 8 with
    symbols := [{ address := 7, finish := none, name }]
    exact := true }

theorem ofVirtualNames?_declaringSeven (name : String) :
    Library.ofVirtualNames? (declaringSeven name).virtualNames = some (sevenLibrary name) := by
  have sorted : Library.sortSymbols [{ address := 7, finish := none, name }] =
      [{ address := 7, finish := none, name }] := List.mergeSort_singleton _
  show some { Library.ofRange LibraryKind.virtualName 7 8 with
    symbols := Library.sortSymbols [{ address := 7, finish := none, name }]
    exact := true } = _
  rw [sorted]
  rfl

theorem libraries_declaringSeven (name : String) :
    (ofProfile (declaringSeven name) [] none).libraries =
      [Library.ofRange LibraryKind.jitName 0 0, sevenLibrary name] := by
  unfold ofProfile
  rw [ofVirtualNames?_declaringSeven]
  show List.mergeSort [sevenLibrary name, Library.ofRange LibraryKind.jitName 0 0] _ = _
  simp [List.mergeSort, sevenLibrary, Library.ofRange]

/-- Where the libraries of a space are given to the space of another profile, which declares
the same address under another name, the address keeps its old name. -/
theorem exists_other_virtualName :
    (declaringSeven "b").virtualNames[(7 : UInt64)]? = some "b" ∧
      (ofProfile (declaringSeven "b") (ofProfile (declaringSeven "a") [] none).libraries
        none).lookup 7 =
          { name := "a", address := 7, library := some 1, isVirtual := true } := by
  refine ⟨rfl, ?_⟩
  have space : ofProfile (declaringSeven "b") (ofProfile (declaringSeven "a") [] none).libraries
      none = ⟨[Library.ofRange LibraryKind.jitName 0 0, sevenLibrary "a", sevenLibrary "b"]⟩ := by
    rw [libraries_declaringSeven]
    unfold ofProfile
    rw [ofVirtualNames?_declaringSeven]
    show AddressSpace.mk (List.mergeSort
      [Library.ofRange LibraryKind.jitName 0 0, sevenLibrary "a", sevenLibrary "b"] _) = _
    rw [List.mergeSort_of_pairwise]
    decide
  rw [space]
  rfl

end VirtualNames

end AddressSpace
end RuntimeLog
