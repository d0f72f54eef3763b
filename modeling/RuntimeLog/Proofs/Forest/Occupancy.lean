import Mathlib.Data.List.Pairwise
import RuntimeLog.Proofs.Space.Traces
import RuntimeLog.Stream.Zstd.Decoder

/-!
# Traces at addresses

A forest finds the trace whose machine code was registered last at an address, and
the one whose code contains an address.  The latter asks only the trace which starts
nearest to the address; where the code of all traces is apart, no other one can
contain it.
-/

namespace RuntimeLog

theorem Trace.contains_iff {trace : Trace} {address : UInt64} :
    trace.contains address ↔
      ∃ start finish, trace.bounds = some (start, finish) ∧ start ≤ address ∧ address < finish := by
  unfold contains
  cases trace.bounds with
  | none => simp
  | some range => simp [Prod.ext_iff, and_assoc]

namespace Forest

open Jitlog (History)

variable {past : History} {forest : Forest} {trace : Trace} {address : UInt64}

/-! ## Starts -/

/-- A trace is found by the address at which its machine code starts. -/
theorem Tracks.bounds_of_traceAtStart?
    (tracks : Tracks past.summary forest.outline)
    (found : forest.traceAtStart? address = some trace) :
    trace ∈ forest.traces.toList ∧ ∃ finish, trace.bounds = some (address, finish) := by
  rw [tracks.traceAtStart?_eq] at found
  obtain ⟨member, begins⟩ := List.mem_filter.mp (List.mem_of_getLast? found)
  obtain ⟨⟨start, finish⟩, bounds, same⟩ := Option.map_eq_some_iff.mp (beq_iff_eq.mp begins)
  cases same
  exact ⟨member, finish, bounds⟩

/-- Where machine code of a trace starts, a trace is found. -/
theorem Tracks.exists_traceAtStart?
    (tracks : Tracks past.summary forest.outline)
    {finish : UInt64}
    (member : trace ∈ forest.traces.toList)
    (bounds : trace.bounds = some (address, finish)) :
    ∃ found, forest.traceAtStart? address = some found := by
  rw [tracks.traceAtStart?_eq]
  have listed : trace ∈ forest.traces.toList.filter fun trace =>
      trace.bounds.map Prod.fst == some address :=
    List.mem_filter.mpr ⟨member, by simp [bounds]⟩
  exact ⟨_, List.getLast?_eq_some_getLast (List.ne_nil_of_mem listed)⟩

/-- The trace which is asked about an address is the one which is found at the nearest
start. -/
theorem traceContaining?_eq (forest : Forest) (address : UInt64) :
    forest.traceContaining? address =
      ((nearest? Prod.fst address forest.byStart.toList).bind fun entry =>
        forest.traceAtStart? entry.1).filter fun trace => trace.contains address := by
  unfold traceContaining?
  rw [AddressMap.floor?_eq_nearest?]
  cases nearest : nearest? Prod.fst address forest.byStart.toList with
  | none => rfl
  | some entry =>
      have indexed := (AddressMap.nearest?_toList_eq_some_iff.mp nearest).1
      rw [Option.bind_some, Option.bind_some, traceAtStart?, indexed, Option.bind_some]

/-! ## Code which is apart -/

/-- The machine code of all traces has bounds which are not empty and have no
addresses in common. -/
structure LiesApart (forest : Forest) : Prop where
  nonempty : ∀ trace ∈ forest.traces.toList, ∀ start finish,
    trace.bounds = some (start, finish) → start < finish
  disjoint : forest.traces.toList.Pairwise fun left right =>
    ∀ address, ¬ (left.contains address ∧ right.contains address)

/-- Where code is apart, only one trace contains an address. -/
theorem LiesApart.eq_of_contains
    {other : Trace}
    (apart : forest.LiesApart)
    (member : trace ∈ forest.traces.toList)
    (otherMember : other ∈ forest.traces.toList)
    (inside : trace.contains address)
    (otherInside : other.contains address) :
    trace = other := by
  apply Classical.byContradiction
  intro different
  have symmetric : Std.Symm fun left right : Trace =>
      ∀ address, ¬ (left.contains address ∧ right.contains address) :=
    ⟨fun left right separate address both => separate address both.symm⟩
  exact apart.disjoint.forall member otherMember different address ⟨inside, otherInside⟩

/-- Where code is apart, the trace which contains an address is found. -/
theorem Tracks.traceContaining?_of_apart
    (tracks : Tracks past.summary forest.outline)
    (apart : forest.LiesApart)
    (member : trace ∈ forest.traces.toList)
    (inside : trace.contains address) :
    forest.traceContaining? address = some trace := by
  obtain ⟨start, finish, bounds, above, below⟩ := Trace.contains_iff.mp inside
  obtain ⟨first, begins⟩ := tracks.exists_traceAtStart? member bounds
  have known := mem_byStart_of_traceAtStart? begins
  rw [traceContaining?_eq]
  cases nearest : nearest? Prod.fst address forest.byStart.toList with
  | none =>
      have beyond := AddressMap.nearest?_toList_eq_none_iff.mp nearest start known
      exact absurd above (UInt64.not_le.mpr beyond)
  | some entry =>
      obtain ⟨nearer, id⟩ := entry
      obtain ⟨indexed, within, greatest⟩ := AddressMap.nearest?_toList_eq_some_iff.mp nearest
      obtain ⟨found, identified⟩ := Option.isSome_iff_exists.mp (tracks.isSome_of_byStart indexed)
      have starts : forest.traceAtStart? nearer = some found := by
        rw [traceAtStart?, indexed, Option.bind_some, identified]
      obtain ⟨listed, otherFinish, otherBounds⟩ := tracks.bounds_of_traceAtStart? starts
      -- its first address is in the code of the trace, too
      have shared : trace.contains nearer := Trace.contains_iff.mpr
        ⟨start, finish, bounds, greatest start known above, UInt64.lt_of_le_of_lt within below⟩
      have own : found.contains nearer := Trace.contains_iff.mpr
        ⟨nearer, otherFinish, otherBounds, UInt64.le_refl _,
          apart.nonempty found listed nearer otherFinish otherBounds⟩
      cases apart.eq_of_contains member listed shared own
      rw [Option.bind_some, starts, Option.filter_some, if_pos inside]

/-! ## Both searches -/

/-- What the searches for an address find. -/
structure FindsByAddress (forest : Forest) (address : UInt64) : Prop where
  /-- A trace which is found by a start has it. -/
  starts : ∀ trace, forest.traceAtStart? address = some trace →
    trace ∈ forest.traces.toList ∧ ∃ finish, trace.bounds = some (address, finish)
  /-- There is one wherever the code of a trace starts. -/
  started : ∀ trace ∈ forest.traces.toList, ∀ finish, trace.bounds = some (address, finish) →
    (forest.traceAtStart? address).isSome
  /-- A trace which is found for an address contains it. -/
  inside : ∀ trace, forest.traceContaining? address = some trace →
    trace ∈ forest.traces.toList ∧
      ∃ start finish, trace.bounds = some (start, finish) ∧ start ≤ address ∧ address < finish
  /-- Where code is apart, it is the one which contains the address. -/
  apart : forest.LiesApart → ∀ trace,
    forest.traceContaining? address = some trace ↔
      trace ∈ forest.traces.toList ∧
        ∃ start finish, trace.bounds = some (start, finish) ∧ start ≤ address ∧ address < finish
  /-- Where code is apart, there is none if no trace contains the address. -/
  nothing : forest.LiesApart →
    (forest.traceContaining? address = none ↔
      ∀ trace ∈ forest.traces.toList, ¬ trace.contains address)

/-- Every forest finds a trace which starts at an address, and one which contains it,
if the code of all traces is apart. -/
theorem Made.findsByAddress [Stream.Decompressor] (made : forest.Made) (address : UInt64) :
    forest.FindsByAddress address := by
  obtain ⟨past, tracks⟩ := made.exists_tracks
  have sound (trace : Trace) (found : forest.traceContaining? address = some trace) :
      trace ∈ forest.traces.toList ∧
        ∃ start finish, trace.bounds = some (start, finish) ∧ start ≤ address ∧
          address < finish := by
    obtain ⟨member, inside⟩ := mem_of_traceContaining? found
    exact ⟨member, Trace.contains_iff.mp inside⟩
  constructor
  case starts => exact fun trace found => tracks.bounds_of_traceAtStart? found
  case started =>
    intro trace member finish bounds
    exact Option.isSome_iff_exists.mpr (tracks.exists_traceAtStart? member bounds)
  case inside => exact sound
  case apart =>
    intro apart trace
    refine ⟨sound trace, ?_⟩
    rintro ⟨member, bounds⟩
    exact tracks.traceContaining?_of_apart apart member (Trace.contains_iff.mpr bounds)
  case nothing =>
    intro apart
    constructor
    · intro nothing trace member inside
      rw [tracks.traceContaining?_of_apart apart member inside] at nothing
      cases nothing
    · intro outside
      cases found : forest.traceContaining? address with
      | none => rfl
      | some trace =>
          obtain ⟨member, inside⟩ := mem_of_traceContaining? found
          exact absurd inside (outside trace member)

/-! ## A log of two traces -/

/-- Records of two loops of which the second one lies behind the first one. -/
def adjacentRecords : List Jitlog.Record :=
  [.startTrace 1 "loop" 0 (some ""), .bounds 64 96, .startTrace 2 "loop" 0 (some ""),
    .bounds 96 128]

/-- A log of two loops which lie side by side. -/
def adjacentLog : Bytes :=
  [0x23, 3, 0, 0, 0, 0, 0, 0] ++ adjacentRecords.flatMap (Jitlog.Record.encode .eight)

set_option maxRecDepth 8000 in
/-- The log of two loops is decoded to its records. -/
theorem reached_adjacentLog [Stream.Decompressor] :
    ∃ reader : LogReader Jitlog.format,
      LogReader.Reached (.ofBytes adjacentLog) 16 adjacentRecords.reverse reader ∧
      ∃ left right, reader.model.traces.toList = [left, right] ∧
        (left.id = 1 ∧ left.bounds = some (64, 96)) ∧
        right.id = 2 ∧ right.bounds = some (96, 128) := by
  obtain ⟨markers, last, supported, written, traces⟩ :
      ∃ markers last,
        Jitlog.format.markers? stitchedHeader.version = some markers ∧
        LogReader.Written Jitlog.format { header := stitchedHeader, markers }
          (Jitlog.format.start stitchedHeader) 8 (adjacentLog.drop 8) adjacentRecords last ∧
        ∃ left right, last.traces.toList = [left, right] ∧
          (left.id = 1 ∧ left.bounds = some (64, 96)) ∧
          right.id = 2 ∧ right.bounds = some (96, 128) := by
    exact ⟨_, _, rfl,
      .more (by decide) rfl rfl rfl (.more (by decide) rfl rfl rfl (.more (by decide) rfl rfl rfl
        (.more (by decide) rfl rfl rfl .none))), _, _, rfl, ⟨rfl, rfl⟩, rfl, rfl⟩
  obtain ⟨reader, reached, same⟩ :=
    LogReader.exists_reached_of_written (by decide) rfl supported written 16
  exact ⟨reader, reached, by rw [same]; exact traces⟩

/-- Two loops side by side are apart. -/
theorem liesApart_of_adjacent
    {left right : Trace}
    (traces : forest.traces.toList = [left, right])
    (leftBounds : left.bounds = some (64, 96))
    (rightBounds : right.bounds = some (96, 128)) :
    forest.LiesApart where
  nonempty := by
    intro trace member start finish bounds
    rw [traces] at member
    rcases List.mem_cons.mp member with rfl | last
    · cases leftBounds.symm.trans bounds
      decide
    · cases List.mem_singleton.mp last
      cases rightBounds.symm.trans bounds
      decide
  disjoint := by
    rw [traces, List.pairwise_pair]
    rintro address ⟨inLeft, inRight⟩
    obtain ⟨_, _, bounds, _, below⟩ := Trace.contains_iff.mp inLeft
    cases leftBounds.symm.trans bounds
    obtain ⟨_, _, bounds, above, _⟩ := Trace.contains_iff.mp inRight
    cases rightBounds.symm.trans bounds
    exact UInt64.not_lt.mpr above below

attribute [local instance] Stream.Zstd.decompressor

/-- Of two loops side by side, the second one is found at the address at which the
first one ends. -/
theorem findsByAddress_of_adjacentLog :
    ∃ reader : LogReader Jitlog.format,
      LogReader.Reached (.ofBytes adjacentLog) 16 adjacentRecords.reverse reader ∧
      reader.model.LiesApart ∧
      (reader.model.traceContaining? 95).map Trace.id = some 1 ∧
      (reader.model.traceContaining? 96).map Trace.id = some 2 ∧
      reader.model.traceContaining? 128 = none := by
  obtain ⟨reader, reached, left, right, traces, ⟨leftId, leftBounds⟩, rightId, rightBounds⟩ :=
    reached_adjacentLog
  have apart := liesApart_of_adjacent traces leftBounds rightBounds
  have finds := Made.findsByAddress (.reached reached)
  have atEnd := ((finds 95).apart apart left).mpr
    ⟨by simp [traces], 64, 96, leftBounds, by decide, by decide⟩
  have behind := ((finds 96).apart apart right).mpr
    ⟨by simp [traces], 96, 128, rightBounds, by decide, by decide⟩
  have beyond : ∀ trace ∈ reader.model.traces.toList, ¬ trace.contains 128 := by
    intro trace member
    rw [traces] at member
    rcases List.mem_cons.mp member with rfl | last
    · simp [Trace.contains, leftBounds]
    · cases List.mem_singleton.mp last
      simp [Trace.contains, rightBounds]
  refine ⟨reader, reached, apart, ?_, ?_, ((finds 128).nothing apart).mpr beyond⟩
  · rw [atEnd, Option.map_some, leftId]
  · rw [behind, Option.map_some, rightId]

end Forest
end RuntimeLog
