import RuntimeLog.Proofs.Space.Lookup

/-!
# Bisection

Lookups can be made by bisection, since libraries are in the order of their starts
and symbols in the order of their addresses.  A lookup by bisection looks at positions
of lists; it never looks beyond them, and it finds what the lookup in the lists finds.
-/

namespace RuntimeLog

/-! ## Positions -/

/-- The first position between two others which fails a test, if all positions which
pass come before all which fail.  Nothing is given if a position cannot be tested. -/
def bisect (test? : Nat → Option Bool) (low high : Nat) : Option Nat :=
  if low < high then
    (test? ((low + high) / 2)).bind fun passes =>
      if passes then bisect test? ((low + high) / 2 + 1) high
      else bisect test? low ((low + high) / 2)
  else some low
termination_by high - low

/-- Bisection finds the point up to which a test passes. -/
theorem bisect_eq
    {test? : Nat → Option Bool}
    {low high point : Nat}
    (above : low ≤ point)
    (below : point ≤ high)
    (passes : ∀ position, position < point → test? position = some true)
    (fails : ∀ position, point ≤ position → position < high → test? position = some false) :
    bisect test? low high = some point := by
  fun_induction bisect test? low high with
  | case1 low high nonempty inductionUpper inductionLower =>
      by_cases within : (low + high) / 2 < point
      · rw [passes _ within, Option.bind_some, if_pos rfl]
        exact inductionUpper (by omega) below fails
      · rw [fails _ (by omega) (by omega), Option.bind_some, if_neg (by simp)]
        exact inductionLower above (by omega) fun position reached inside =>
          fails position reached (by omega)
  | case2 low high empty =>
      rw [show low = point by omega]

section Lists

variable {α : Type} {low : α → Bool} {entries : List α} {entry : α}

/-- A list in which the entries which pass a test come first. -/
def Partitioned (low : α → Bool) (entries : List α) : Prop :=
  entries.Pairwise fun left right => low right → low left

theorem low_of_mem_takeWhile (member : entry ∈ entries.takeWhile low) : low entry :=
  List.all_eq_true.mp List.all_takeWhile entry member

theorem not_low_of_mem_dropWhile
    (partitioned : Partitioned low entries)
    (member : entry ∈ entries.dropWhile low) :
    ¬ low entry := by
  induction entries with
  | nil => cases member
  | cons first others inductionHypothesis =>
      obtain ⟨foremost, rest⟩ := List.pairwise_cons.mp partitioned
      by_cases passes : low first
      · rw [List.dropWhile_cons_of_pos passes] at member
        exact inductionHypothesis rest member
      · rw [List.dropWhile_cons_of_neg passes] at member
        rcases List.mem_cons.mp member with rfl | behind
        · exact passes
        · exact fun also => passes (foremost entry behind also)

/-- Bisection counts the entries which pass a test. -/
theorem bisect_eq_length_takeWhile (partitioned : Partitioned low entries) :
    bisect (fun position => (entries[position]?).map low) 0 entries.length =
      some (entries.takeWhile low).length := by
  have passing (entry : α) (member : entry ∈ entries.takeWhile low) : low entry :=
    low_of_mem_takeWhile member
  have failing (entry : α) (member : entry ∈ entries.dropWhile low) : ¬ low entry :=
    not_low_of_mem_dropWhile partitioned member
  have split := List.takeWhile_append_dropWhile (p := low) (l := entries)
  generalize entries.takeWhile low = front at passing split ⊢
  generalize entries.dropWhile low = back at failing split
  subst split
  refine bisect_eq (Nat.zero_le _) (by simp) ?_ ?_
  · intro position within
    rw [List.getElem?_append_left within, List.getElem?_eq_getElem within, Option.map_some,
      passing _ (List.getElem_mem within)]
  · intro position beyond within
    have inBack : position - front.length < back.length := by
      rw [List.length_append] at within
      omega
    rw [List.getElem?_append_right beyond, List.getElem?_eq_getElem inBack, Option.map_some]
    exact congrArg some (Bool.eq_false_iff.mpr (failing _ (List.getElem_mem inBack)))

/-- The last entry which passes a test is in front of the point to which the test
passes. -/
theorem getElem?_length_takeWhile (low : α → Bool) (entries : List α) :
    (if (entries.takeWhile low).length = 0 then none
      else entries[(entries.takeWhile low).length - 1]?) =
      (entries.takeWhile low).getLast? := by
  split
  · rename_i absent
    rw [List.length_eq_zero_iff.mp absent, List.getLast?_nil]
  · rename_i present
    obtain ⟨rest, split⟩ := List.takeWhile_prefix (p := low) (l := entries)
    have within : (entries.takeWhile low).length - 1 < (entries.takeWhile low).length := by omega
    rw [List.getLast?_eq_getElem?]
    exact (congrArg (fun list => list[(entries.takeWhile low).length - 1]?) split).symm.trans
      (List.getElem?_append_left within)

/-- The entry behind those which pass a test is the first one which does not. -/
theorem getElem?_behind_takeWhile (low : α → Bool) (entries : List α) :
    entries[(entries.takeWhile low).length]? = (entries.dropWhile low).head? := by
  have split := List.takeWhile_append_dropWhile (p := low) (l := entries)
  have behind : (entries.takeWhile low ++ entries.dropWhile low)[
      (entries.takeWhile low).length]? = (entries.dropWhile low).head? := by
    rw [List.getElem?_append_right (Nat.le_refl _), Nat.sub_self, List.head?_eq_getElem?]
  rwa [split] at behind

/-- In a list which is sorted by address, only the first entry can have the least
address which is possible. -/
theorem find?_eq_filter_head?
    {address : α → UInt64}
    {bound : UInt64}
    (sorted : entries.Pairwise fun left right => address left ≤ address right)
    (above : ∀ entry ∈ entries, bound ≤ address entry) :
    entries.find? (fun entry => address entry == bound) =
      entries.head?.filter fun entry => address entry == bound := by
  cases entries with
  | nil => rfl
  | cons first others =>
      by_cases same : address first = bound
      · simp [same, Option.filter_some]
      · have foremost := (List.pairwise_cons.mp sorted).1
        have farther : others.find? (fun entry => address entry == bound) = none := by
          apply List.find?_eq_none.mpr
          intro entry member here
          have back : address first ≤ bound := beq_iff_eq.mp here ▸ foremost entry member
          exact same (UInt64.le_antisymm back (above first List.mem_cons_self))
        simp [same, farther, Option.filter_some]

end Lists

/-! ## Symbols -/

namespace Library

/-- The last symbol at or below an address, by bisection. -/
def searchBelow? (library : Library) (address : UInt64) : Option (Option Symbol) :=
  (bisect (fun position => (library.symbols[position]?).map fun symbol =>
      decide (symbol.address ≤ address)) 0 library.symbols.length).bind fun point =>
    if point = 0 then some none
    else (library.symbols[point - 1]?).map fun symbol =>
      if symbol.reaches address then some symbol else none

/-- The symbol of exactly an address, by bisection. -/
def searchExact? (library : Library) (address : UInt64) : Option (Option Symbol) :=
  (bisect (fun position => (library.symbols[position]?).map fun symbol =>
      decide (symbol.address < address)) 0 library.symbols.length).map fun point =>
    (library.symbols[point]?).filter fun symbol => symbol.address == address

variable {library : Library}

/-- In sorted symbols, bisection finds the last one at or below an address. -/
theorem searchBelow?_eq
    (sorted : library.symbols.Pairwise fun left right => left.address ≤ right.address)
    (address : UInt64) :
    library.searchBelow? address = some (library.symbolFor? address) := by
  have partitioned :
      Partitioned (fun symbol : Symbol => decide (symbol.address ≤ address)) library.symbols :=
    sorted.imp fun ordered low => by
      rw [decide_eq_true_eq] at low ⊢
      exact UInt64.le_trans ordered low
  have last := getElem?_length_takeWhile
    (fun symbol : Symbol => decide (symbol.address ≤ address)) library.symbols
  unfold searchBelow? symbolFor?
  rw [bisect_eq_length_takeWhile partitioned, Option.bind_some, ← last]
  split
  · rfl
  · rename_i present
    have length := (List.takeWhile_prefix (p := fun symbol : Symbol =>
      decide (symbol.address ≤ address)) (l := library.symbols)).length_le
    rw [List.getElem?_eq_getElem (by omega), Option.map_some, Option.filter_some]

/-- In sorted symbols, bisection finds the first one of an address. -/
theorem searchExact?_eq
    (sorted : library.symbols.Pairwise fun left right => left.address ≤ right.address)
    (address : UInt64) :
    library.searchExact? address = some (library.exactSymbol? address) := by
  have partitioned :
      Partitioned (fun symbol : Symbol => decide (symbol.address < address)) library.symbols :=
    sorted.imp fun ordered low => by
      rw [decide_eq_true_eq] at low ⊢
      exact UInt64.lt_of_le_of_lt ordered low
  have split := List.takeWhile_append_dropWhile
    (p := fun symbol : Symbol => decide (symbol.address < address)) (l := library.symbols)
  have ahead : (library.symbols.takeWhile fun symbol => decide (symbol.address < address)).find?
      (fun symbol => symbol.address == address) = none := by
    apply List.find?_eq_none.mpr
    intro symbol member same
    have low := low_of_mem_takeWhile member
    rw [beq_iff_eq.mp same, decide_eq_true_eq] at low
    exact UInt64.lt_irrefl _ low
  have behind : ∀ symbol ∈ library.symbols.dropWhile fun symbol =>
      decide (symbol.address < address), address ≤ symbol.address := by
    intro symbol member
    have high := not_low_of_mem_dropWhile partitioned member
    rw [decide_eq_true_eq] at high
    exact UInt64.not_lt.mp high
  unfold searchExact? exactSymbol?
  rw [bisect_eq_length_takeWhile partitioned, Option.map_some, getElem?_behind_takeWhile,
    ← find?_eq_filter_head? (sorted.sublist (List.dropWhile_sublist _)) behind]
  conv => rhs; rw [← split, List.find?_append, ahead, Option.none_or]

end Library

/-! ## Spaces -/

/-- The frame of an address in the range of a library, by the symbol which was found
for it. -/
def Library.frameOf (library : Library) (number : Nat) (address : UInt64) : Option Symbol → Frame
  | some symbol =>
      { name := symbol.name
        address := symbol.address
        library := some number
        isVirtual := library.isVirtual }
  | none =>
      { name := Text.hex address.toNat, address, library := some number, isVirtual := false }

namespace AddressSpace

theorem frameIn_eq (library : Library) (number : Nat) (address : UInt64) :
    frameIn library number address =
      library.frameOf number address (library.symbolFor? address) := by
  unfold frameIn
  cases library.symbolFor? address <;> rfl

/-- The frame of an address for which one of the libraries at some positions has a
name, by bisection. -/
def searchNames? (space : AddressSpace) (address : UInt64) :
    List Nat → Option (Option Frame)
  | [] => some none
  | number :: others =>
      (space.libraries[number]?).bind fun library =>
        (library.searchExact? address).bind fun found =>
          found.elim (space.searchNames? address others) fun symbol =>
            some (some
              { name := symbol.name
                address
                library := some number
                isVirtual := library.isVirtual })

/-- The frame of an address in the ranges of the libraries at some positions, by
bisection. -/
def searchRanges? (space : AddressSpace) (address : UInt64) (numbers : List Nat) :
    Option Frame :=
  (bisect (fun position =>
      (numbers[position]?).bind fun number =>
        (space.libraries[number]?).map fun library => decide (library.start ≤ address))
      0 numbers.length).bind fun point =>
    if point = 0 then some (.unknown address)
    else
      (numbers[point - 1]?).bind fun number =>
        (space.libraries[number]?).bind fun library =>
          if library.contains address then
            (library.searchBelow? address).map (library.frameOf number address)
          else some (.unknown address)

/-- Resolve an address by bisection in the lists of numbers and of symbols.  Nothing
is given if a position is outside of a list. -/
def search? (space : AddressSpace) (address : UInt64) : Option Frame :=
  (space.searchNames? address (space.exact.map Prod.snd)).bind fun found =>
    found.elim (space.searchRanges? address (space.ranged.map Prod.snd)) some

/-- A space in which bisection is possible. -/
structure InOrder (space : AddressSpace) : Prop where
  libraries : space.libraries.Pairwise fun left right => left.start ≤ right.start
  symbols : ∀ library ∈ space.libraries,
    library.symbols.Pairwise fun left right => left.address ≤ right.address

variable {space : AddressSpace} {entries : List (Library × Nat)} {library : Library}
  {number : Nat}

theorem InOrder.symbols_of_library?
    (ordered : space.InOrder)
    (known : space.library? number = some library) :
    library.symbols.Pairwise fun left right => left.address ≤ right.address :=
  ordered.symbols library (List.mem_of_getElem? known)

/-- Bisection finds the first library which has a name for an address. -/
theorem searchNames?_eq
    (ordered : space.InOrder)
    (address : UInt64)
    (numbered : ∀ entry ∈ entries, space.library? entry.2 = some entry.1) :
    space.searchNames? address (entries.map Prod.snd) =
      some (entries.findSome? fun entry =>
        (entry.1.exactSymbol? address).map fun symbol =>
          { name := symbol.name
            address
            library := some entry.2
            isVirtual := entry.1.isVirtual }) := by
  induction entries with
  | nil => rfl
  | cons entry others inductionHypothesis =>
      have known := numbered entry List.mem_cons_self
      have here := Library.searchExact?_eq (ordered.symbols_of_library? known) address
      have rest := inductionHypothesis fun other member =>
        numbered other (List.mem_cons_of_mem _ member)
      unfold library? at known
      rw [List.map_cons, searchNames?, known, Option.bind_some, here, Option.bind_some,
        List.findSome?_cons]
      cases entry.1.exactSymbol? address with
      | none => exact rest
      | some symbol => rfl

/-- Bisection in the numbers of libraries looks at their start addresses. -/
theorem bisect_numbers
    (numbered : ∀ entry ∈ entries, space.library? entry.2 = some entry.1)
    (sorted : entries.Pairwise fun left right => left.1.start ≤ right.1.start)
    (address : UInt64) :
    bisect (fun position =>
        ((entries.map Prod.snd)[position]?).bind fun number =>
          (space.libraries[number]?).map fun library => decide (library.start ≤ address))
        0 (entries.map Prod.snd).length =
      some (entries.takeWhile fun entry => decide (entry.1.start ≤ address)).length := by
  have partitioned : Partitioned (fun entry : Library × Nat => decide (entry.1.start ≤ address))
      entries :=
    sorted.imp fun ordered low => by
      rw [decide_eq_true_eq] at low ⊢
      exact UInt64.le_trans ordered low
  rw [← bisect_eq_length_takeWhile partitioned, List.length_map]
  congr 1
  funext position
  rw [List.getElem?_map]
  cases here : entries[position]? with
  | none => rfl
  | some entry =>
      have known : space.libraries[entry.2]? = some entry.1 :=
        numbered entry (List.mem_of_getElem? here)
      rw [Option.map_some, Option.bind_some, known]
      rfl

/-- Libraries with ranges are numbered in the order of their start addresses. -/
theorem InOrder.pairwise_ranged (ordered : space.InOrder) :
    space.ranged.Pairwise fun left right => left.1.start ≤ right.1.start := by
  have all : space.numbered.map Prod.fst = space.libraries := List.zipIdx_map_fst 0 _
  have sorted := ordered.libraries
  rw [← all, List.pairwise_map] at sorted
  exact sorted.filter _

/-- In a space in order, bisection finds the library which is asked about an address. -/
theorem searchRanges?_eq (ordered : space.InOrder) (address : UInt64) :
    space.searchRanges? address (space.ranged.map Prod.snd) =
      some (((space.rangedBelow? address).map fun entry =>
        if entry.1.contains address then frameIn entry.1 entry.2 address
        else .unknown address).getD (.unknown address)) := by
  have numbered : ∀ entry ∈ space.ranged, space.library? entry.2 = some entry.1 :=
    fun entry member => (mem_ranged_iff.mp member).1
  have last := getElem?_length_takeWhile
    (fun entry : Library × Nat => decide (entry.1.start ≤ address)) space.ranged
  unfold searchRanges? rangedBelow?
  rw [bisect_numbers numbered ordered.pairwise_ranged, Option.bind_some, ← last]
  split
  · rfl
  · rename_i present
    have length := (List.takeWhile_prefix (p := fun entry : Library × Nat =>
      decide (entry.1.start ≤ address)) (l := space.ranged)).length_le
    obtain ⟨entry, here⟩ : ∃ entry, space.ranged[(space.ranged.takeWhile fun entry =>
        decide (entry.1.start ≤ address)).length - 1]? = some entry :=
      ⟨_, List.getElem?_eq_getElem (by omega)⟩
    have known : space.libraries[entry.2]? = some entry.1 :=
      numbered entry (List.mem_of_getElem? here)
    rw [List.getElem?_map, here, Option.map_some, Option.bind_some, known, Option.bind_some,
      Option.map_some, Option.getD_some]
    split
    · rw [Library.searchBelow?_eq (ordered.symbols_of_library? known), Option.map_some, frameIn_eq]
    · rfl

/-- In a space in order, a lookup by bisection stays within all lists and finds what
the lookup finds. -/
theorem search?_eq (ordered : space.InOrder) (address : UInt64) :
    space.search? address = some (space.lookup address) := by
  have numbered : ∀ entry ∈ space.exact, space.library? entry.2 = some entry.1 :=
    fun entry member => (mem_exact_iff.mp member).1
  unfold search?
  rw [searchNames?_eq ordered address numbered, Option.bind_some]
  show (space.lookupExact? address).elim _ some = _
  unfold lookup
  cases space.lookupExact? address with
  | some frame => rfl
  | none =>
      rw [Option.elim_none, searchRanges?_eq ordered]
      cases space.rangedBelow? address with
      | none => rfl
      | some entry => rfl

end AddressSpace
end RuntimeLog
