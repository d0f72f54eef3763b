import RuntimeLog.Forest.Basic
import RuntimeLog.Proofs.Forest.Tracking
import RuntimeLog.Proofs.Space.Lookup
import RuntimeLog.Stream.Zstd.Decoder

/-!
# The library of traces

The library of a forest has one symbol for every trace with machine code, in the
order of their starts.  The symbol which it finds for an address is the one of the
trace which the forest finds there.
-/

namespace RuntimeLog
namespace Forest

open Jitlog (History)

variable {past : History} {forest : Forest} {trace : Trace} {address : UInt64}

/-- The symbol of a trace is at the start of its bounds. -/
theorem traceSymbol?_eq_some {symbol : Symbol} (named : Library.traceSymbol? trace = some symbol) :
    ∃ finish, trace.bounds = some (symbol.address, finish) ∧ symbol.finish = some finish := by
  obtain ⟨⟨start, finish⟩, bounds, rfl⟩ := Option.map_eq_some_iff.mp named
  exact ⟨finish, bounds, rfl⟩

/-- The symbol of a trace reaches up to the addresses which the trace contains. -/
theorem contains_iff_reaches {symbol : Symbol} (named : Library.traceSymbol? trace = some symbol)
    (above : symbol.address ≤ address) :
    trace.contains address = symbol.reaches address := by
  obtain ⟨finish, bounds, same⟩ := traceSymbol?_eq_some named
  simp [Trace.contains, bounds, Symbol.reaches, same, above]

/-- A trace which contains an address has a symbol. -/
theorem exists_traceSymbol? (inside : trace.contains address) :
    ∃ symbol, Library.traceSymbol? trace = some symbol := by
  unfold Trace.contains at inside
  unfold Library.traceSymbol?
  cases bounds : trace.bounds with
  | none => simp [bounds] at inside
  | some bounds => exact ⟨_, rfl⟩

/-- The greatest one of some addresses is found by comparing them. -/
instance : Std.LawfulOrderMax UInt64 where
  max_eq_or left right := by
    show (if left ≤ right then right else left) = left ∨
      (if left ≤ right then right else left) = right
    split
    · exact Or.inr rfl
    · exact Or.inl rfl
  max_le_iff left right bound := by
    show (if left ≤ right then right else left) ≤ bound ↔ left ≤ bound ∧ right ≤ bound
    split
    · rename_i below
      exact ⟨fun within => ⟨UInt64.le_trans below within, within⟩, And.right⟩
    · rename_i notBelow
      have above := UInt64.le_of_lt (UInt64.not_le.mp notBelow)
      exact ⟨fun within => ⟨within, UInt64.le_trans above within⟩, And.left⟩

/-- A trace which is found for an address is one of the forest which contains it. -/
theorem mem_of_traceContaining? (found : forest.traceContaining? address = some trace) :
    trace ∈ forest.traces.toList ∧ trace.contains address := by
  obtain ⟨nearest, inside⟩ := Option.filter_eq_some_iff.mp found
  obtain ⟨entry, _, known⟩ := Option.bind_eq_some_iff.mp nearest
  exact ⟨List.mem_reverse.mpr (List.mem_of_find?_eq_some known), inside⟩

/-- All machine code of a forest is around the bounds of each of its traces. -/
theorem exists_codeBounds?
    {start finish : UInt64}
    (listed : (start, finish) ∈ forest.allBounds) :
    ∃ first last, forest.codeBounds? = some (first, last) ∧ first ≤ start ∧ finish ≤ last := by
  have starts := List.mem_map_of_mem (f := Prod.fst) listed
  have finishes := List.mem_map_of_mem (f := Prod.snd) listed
  obtain ⟨first, least⟩ := Option.ne_none_iff_exists'.mp fun nothing =>
    List.ne_nil_of_mem starts (List.min?_eq_none_iff.mp nothing)
  obtain ⟨last, greatest⟩ := Option.ne_none_iff_exists'.mp fun nothing =>
    List.ne_nil_of_mem finishes (List.max?_eq_none_iff.mp nothing)
  refine ⟨first, last, ?_, (List.min?_eq_some_iff.mp least).2 start starts,
    (List.max?_eq_some_iff.mp greatest).2 finish finishes⟩
  unfold codeBounds?
  rw [least, greatest]

/-- The library of a forest contains all addresses which its traces contain. -/
theorem contains_ofForest
    (member : trace ∈ forest.traces.toList)
    (inside : trace.contains address) :
    (Library.ofForest forest).contains address := by
  unfold Trace.contains at inside
  cases bounds : trace.bounds with
  | none => simp [bounds] at inside
  | some range =>
      obtain ⟨start, finish⟩ := range
      obtain ⟨above, below⟩ : start ≤ address ∧ address < finish := by
        simpa [bounds] using inside
      obtain ⟨first, last, span, least, greatest⟩ :=
        exists_codeBounds? (List.mem_filterMap.mpr ⟨trace, member, bounds⟩)
      have range : (Library.ofForest forest).start = first ∧
          (Library.ofForest forest).finish = last := by
        unfold Library.ofForest
        rw [span]
        exact ⟨rfl, rfl⟩
      rw [Library.contains_iff, range.1, range.2]
      exact ⟨UInt64.le_trans least above, UInt64.lt_of_lt_of_le below greatest⟩

/-- The trace whose code starts at an address is the last one of those whose
bounds do. -/
theorem Tracks.traceAtStart?_eq
    (tracks : Tracks past.summary forest.outline)
    (start : UInt64) :
    forest.traceAtStart? start =
      (forest.traces.toList.filter fun trace =>
        trace.bounds.map Prod.fst == some start).getLast? := by
  have ids : forest.traces.toList.map Trace.id = past.started := tracks.ids
  have newest : forest.byStart[start]? = past.summary.traceAt? start := tracks.byStart start
  have same : (past.summary.started.filter fun id =>
      (past.summary.bounds id).map Prod.fst == some start) =
      (forest.traces.toList.filter fun trace =>
        trace.bounds.map Prod.fst == some start).map Trace.id := by
    show past.started.filter _ = _
    rw [← ids, List.filter_map]
    apply congrArg (List.map Trace.id)
    apply List.filter_congr
    intro trace member
    have known : (forest.outline.traces trace.id).bind Trace.Outline.bounds = trace.bounds := by
      show ((forest.trace? trace.id).map Trace.outline).bind _ = _
      rw [tracks.trace?_of_mem member]
      rfl
    rw [tracks.bounds trace.id] at known
    rw [Function.comp_apply, known]
  unfold traceAtStart?
  rw [newest, History.Summary.traceAt?, same, List.getLast?_map]
  cases last : (forest.traces.toList.filter fun trace =>
      trace.bounds.map Prod.fst == some start).getLast? with
  | none => rfl
  | some trace =>
      exact tracks.trace?_of_mem (List.mem_filter.mp (List.mem_of_getLast? last)).1

/-- The last converted entry is the converted last one, if all can be converted. -/
theorem getLast?_filterMap_of_isSome {α β : Type} {convert : α → Option β} {entries : List α}
    (total : ∀ entry ∈ entries, (convert entry).isSome) :
    (entries.filterMap convert).getLast? = entries.getLast?.bind convert := by
  rcases List.eq_nil_or_concat entries with rfl | ⟨others, last, rfl⟩
  · rfl
  · obtain ⟨converted, same⟩ := Option.isSome_iff_exists.mp (total last (by simp))
    simp [same]

/-- The last symbol at an address is the one of the trace whose code starts
there. -/
theorem Tracks.getLast?_traceSymbols
    (tracks : Tracks past.summary forest.outline)
    (start : UInt64) :
    ((forest.traces.toList.filterMap Library.traceSymbol?).filter
        fun symbol => symbol.address == start).getLast? =
      (forest.traceAtStart? start).bind Library.traceSymbol? := by
  have same : ((forest.traces.toList.filterMap Library.traceSymbol?).filter
      fun symbol => symbol.address == start) =
      (forest.traces.toList.filter fun trace =>
        trace.bounds.map Prod.fst == some start).filterMap Library.traceSymbol? := by
    rw [List.filter_filterMap, List.filterMap_filter]
    apply List.filterMap_congr
    intro trace _
    cases bounds : trace.bounds with
    | none => simp [Library.traceSymbol?, bounds]
    | some range => by_cases equal : range.1 = start <;> simp [Library.traceSymbol?, bounds, equal]
  rw [tracks.traceAtStart?_eq, same]
  apply getLast?_filterMap_of_isSome
  intro trace member
  have begins := (List.mem_filter.mp member).2
  cases bounds : trace.bounds with
  | none => simp [bounds] at begins
  | some range => simp [Library.traceSymbol?, bounds]

/-- A trace is found only at an address at which code is known to start. -/
theorem mem_byStart_of_traceAtStart?
    {start : UInt64}
    (begins : forest.traceAtStart? start = some trace) :
    start ∈ forest.byStart := by
  rw [Std.ExtTreeMap.mem_iff_isSome_getElem?]
  cases unknown : forest.byStart[start]? with
  | some id => rfl
  | none => simp [traceAtStart?, unknown] at begins

/-- A symbol of a trace is at an address at which code is known to start. -/
theorem Tracks.mem_byStart_of_symbol
    (tracks : Tracks past.summary forest.outline)
    {symbol : Symbol}
    (member : symbol ∈ forest.traces.toList.filterMap Library.traceSymbol?) :
    symbol.address ∈ forest.byStart := by
  have here : symbol ∈ (forest.traces.toList.filterMap Library.traceSymbol?).filter
      fun other => other.address == symbol.address :=
    List.mem_filter.mpr ⟨member, beq_self_eq_true _⟩
  have last := tracks.getLast?_traceSymbols symbol.address
  cases begins : forest.traceAtStart? symbol.address with
  | some trace => exact mem_byStart_of_traceAtStart? begins
  | none =>
      rw [begins, Option.bind_none] at last
      exact absurd (List.getLast?_eq_none_iff.mp last) (List.ne_nil_of_mem here)

/-- The nearest symbol of a trace is the one of the trace whose code starts
nearest to an address. -/
theorem Tracks.nearest?_traceSymbols
    (tracks : Tracks past.summary forest.outline)
    (address : UInt64) :
    nearest? Symbol.address address (forest.traces.toList.filterMap Library.traceSymbol?) =
      ((AddressMap.floor? forest.byStart address).bind fun entry => forest.trace? entry.2).bind
        Library.traceSymbol? := by
  rw [AddressMap.floor?_eq_nearest?]
  cases nearest : nearest? Prod.fst address forest.byStart.toList with
  | none =>
      apply nearest?_eq_none_iff.mpr
      intro symbol member
      exact AddressMap.nearest?_toList_eq_none_iff.mp nearest _ (tracks.mem_byStart_of_symbol member)
  | some entry =>
      obtain ⟨start, id⟩ := entry
      obtain ⟨indexed, within, greatest⟩ := AddressMap.nearest?_toList_eq_some_iff.mp nearest
      have begins : forest.traceAtStart? start = forest.trace? id := by
        rw [traceAtStart?, indexed, Option.bind_some]
      obtain ⟨trace, found⟩ := Option.isSome_iff_exists.mp (tracks.isSome_of_byStart indexed)
      have last := tracks.traceAtStart?_eq start
      rw [begins, found] at last
      have bounds := (List.mem_filter.mp (List.mem_of_getLast? last.symm)).2
      obtain ⟨symbol, named, same⟩ :
          ∃ symbol, Library.traceSymbol? trace = some symbol ∧ symbol.address = start := by
        obtain ⟨range, known, rfl⟩ := Option.map_eq_some_iff.mp (beq_iff_eq.mp bounds)
        exact ⟨_, congrArg (Option.map _) known, rfl⟩
      -- the symbol is the last one at the greatest known start
      have lastSymbol := tracks.getLast?_traceSymbols start
      rw [begins, found, Option.bind_some, named] at lastSymbol
      rw [Option.bind_some, found, Option.bind_some, named]
      refine nearest?_eq_some_iff.mpr ⟨isNearest_iff.mpr ⟨same ▸ within, ?_⟩, same ▸ lastSymbol⟩
      intro other member otherWithin
      rw [same]
      exact greatest other.address (tracks.mem_byStart_of_symbol member) otherWithin

/-- The library of a forest finds the symbol of the trace which contains an
address. -/
theorem Tracks.symbolFor?_ofForest
    (tracks : Tracks past.summary forest.outline)
    (address : UInt64) :
    (Library.ofForest forest).symbolFor? address =
      (forest.traceContaining? address).bind Library.traceSymbol? := by
  have nearest := tracks.nearest?_traceSymbols address
  have asked : (Library.ofForest forest).symbolFor? address =
      (nearest? Symbol.address address (forest.traces.toList.filterMap Library.traceSymbol?)).filter
        fun symbol => symbol.reaches address := by
    have sorted : (Library.ofForest forest).symbols.Pairwise
        fun left right => left.address ≤ right.address :=
      pairwise_mergeSort _
    rw [Library.symbolFor?_eq_filter sorted]
    exact congrArg _ (nearest?_congr (filter_mergeSort _))
  rw [asked]
  unfold traceContaining?
  cases found : (AddressMap.floor? forest.byStart address).bind
      fun entry => forest.trace? entry.2 with
  | none =>
      rw [nearest, found]
      rfl
  | some trace =>
      rw [found, Option.bind_some] at nearest
      rw [nearest]
      cases named : Library.traceSymbol? trace with
      | none => cases inside : trace.contains address <;> simp [Option.filter, inside, named]
      | some symbol =>
          rw [named] at nearest
          have above := (isNearest_iff.mp (nearest?_eq_some_iff.mp nearest).1).1
          have same := contains_iff_reaches named above
          cases inside : symbol.reaches address <;>
            simp [Option.filter, same, inside, named]

/-- The library of a forest has the name of the trace which contains an address. -/
theorem Tracks.nameAt?_ofForest
    (tracks : Tracks past.summary forest.outline)
    (address : UInt64) :
    (Library.ofForest forest).nameAt? address =
      ((forest.traceContaining? address).bind Library.traceSymbol?).map Symbol.name := by
  unfold Library.nameAt?
  rw [tracks.symbolFor?_ofForest]
  split
  · rfl
  · rename_i outside
    cases found : forest.traceContaining? address with
    | none => rfl
    | some trace =>
        obtain ⟨member, inside⟩ := mem_of_traceContaining? found
        exact absurd (contains_ofForest member inside) outside

/-! ## Forests as they are made -/

/-- A forest is new, or it is in a state of a reader, or source lines of another
one were extracted. -/
inductive Made [Stream.Decompressor] : Forest → Prop
  | start (header : Header) : Made (start header)
  | reached
      {source : Stream.Source}
      {chunk : Nat}
      {history : History}
      {reader : LogReader Jitlog.format}
      (reached : LogReader.Reached source chunk history reader) :
      Made reader.model
  | extracted {forest : Forest} (before : Made forest) (files : SourceFiles) :
      Made (forest.extractSources files).1

/-- Every forest tracks some history. -/
theorem Made.exists_tracks [Stream.Decompressor] (made : forest.Made) :
    ∃ past : History, Tracks past.summary forest.outline := by
  induction made with
  | start header => exact ⟨[], tracks_start header⟩
  | reached reached => exact ⟨_, tracks_of_reached reached⟩
  | extracted before files inductionHypothesis => exact inductionHypothesis

/-- The library of a forest has no name for an address which is in no trace. -/
theorem Made.nameAt?_eq_none
    [Stream.Decompressor]
    (made : forest.Made)
    (untraced : ∀ trace ∈ forest.traces.toList, ¬ trace.contains address) :
    (Library.ofForest forest).nameAt? address = none := by
  obtain ⟨past, tracks⟩ := made.exists_tracks
  rw [tracks.nameAt?_ofForest]
  cases found : forest.traceContaining? address with
  | none => rfl
  | some trace =>
      obtain ⟨member, inside⟩ := mem_of_traceContaining? found
      exact absurd inside (untraced trace member)

/-- The library of a forest names an address by the trace which contains it. -/
theorem Made.nameAt?_eq_some
    [Stream.Decompressor]
    (made : forest.Made)
    (found : forest.traceContaining? address = some trace) :
    ∃ symbol, Library.traceSymbol? trace = some symbol ∧
      (Library.ofForest forest).start ≤ address ∧
      (Library.ofForest forest).nameAt? address = some symbol.name := by
  obtain ⟨past, tracks⟩ := made.exists_tracks
  obtain ⟨member, inside⟩ := mem_of_traceContaining? found
  obtain ⟨symbol, named⟩ := exists_traceSymbol? inside
  refine ⟨symbol, named, (Library.contains_iff.mp (contains_ofForest member inside)).1, ?_⟩
  rw [tracks.nameAt?_ofForest, found, Option.bind_some, named, Option.map_some]

/-! ## Symbols and traces -/

/-- The trace and the symbol which are found for an address belong together. -/
structure AgreesAt (forest : Forest) (address : UInt64) : Prop where
  /-- There is a symbol exactly if there is a trace. -/
  missing :
    (Library.ofForest forest).symbolFor? address = none ↔ forest.traceContaining? address = none
  /-- The symbol is named after the trace and has its bounds. -/
  named : ∀ trace, forest.traceContaining? address = some trace →
    ∃ start finish,
      trace.bounds = some (start, finish) ∧
      (Library.ofForest forest).symbolFor? address =
        some
          { address := start
            finish := some finish
            name := "jit:" ++ trace.kind.name ++ "#" ++ Text.hex trace.id.toNat }
  /-- No other trace has the id after which the symbol is named. -/
  unique : ∀ trace, forest.traceContaining? address = some trace →
    ∀ other ∈ forest.traces.toList, other.id = trace.id → other = trace
  /-- The range of the library is around the trace. -/
  inside : ∀ trace, forest.traceContaining? address = some trace →
    (Library.ofForest forest).contains address

/-- The library of a forest finds the symbol of the trace which the forest finds,
however the traces lie. -/
theorem Made.agreesAt
    [Stream.Decompressor]
    (made : forest.Made)
    (address : UInt64) :
    forest.AgreesAt address := by
  obtain ⟨past, tracks⟩ := made.exists_tracks
  have asked := tracks.symbolFor?_ofForest address
  constructor
  case missing =>
    rw [asked]
    cases found : forest.traceContaining? address with
    | none => simp
    | some trace =>
        obtain ⟨symbol, named⟩ := exists_traceSymbol? (mem_of_traceContaining? found).2
        simp [named]
  case named =>
    intro trace found
    obtain ⟨symbol, named⟩ := exists_traceSymbol? (mem_of_traceContaining? found).2
    obtain ⟨⟨start, finish⟩, bounds, same⟩ := Option.map_eq_some_iff.mp named
    refine ⟨start, finish, bounds, ?_⟩
    rw [asked, found, Option.bind_some, named, ← same]
  case unique =>
    intro trace found other member same
    have own := tracks.trace?_of_mem (mem_of_traceContaining? found).1
    have others := tracks.trace?_of_mem member
    rw [same] at others
    exact Option.some.inj (others.symm.trans own)
  case inside =>
    intro trace found
    obtain ⟨member, inside⟩ := mem_of_traceContaining? found
    exact contains_ofForest member inside

attribute [local instance] Stream.Zstd.decompressor

/-- In the log with a bridge, the symbol and the trace at an address of the bridge
belong together. -/
theorem agreesAt_of_stitchedLog :
    ∃ reader : LogReader Jitlog.format,
      LogReader.Reached (.ofBytes stitchedLog) 16 stitchedRecords.reverse reader ∧
      (reader.model.traceContaining? 80).map Trace.id = some 2 ∧
      reader.model.AgreesAt 80 := by
  obtain ⟨reader, reached, _, containing⟩ := reached_stitchedLog
  exact ⟨reader, reached, containing, (Made.reached reached).agreesAt 80⟩

end Forest
end RuntimeLog
