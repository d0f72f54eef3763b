import RuntimeLog.Proofs.Forest.Credits
import RuntimeLog.Stream.Zstd.Decoder

/-!
# Targets of points

Control is led from a point to the traces which were attached to it since the last
redirect, in the order of their records.  The last of them is what a counter of the
bridges of the point counts.
-/

namespace RuntimeLog
namespace Forest

open Jitlog (Attachment History)

variable {past history : History} {forest next : Forest}

/-! ## Decoded records -/

/-- A record which a reader takes makes a step, of which only the time and the offset
are left to be noted. -/
theorem exists_step_of_takes
    [Stream.Decompressor]
    {reader later : LogReader Jitlog.format}
    {marker : UInt8}
    {offset : Nat}
    {record : Jitlog.Record}
    (taken : reader.Takes marker offset record later) :
    ∃ next behind,
      Step reader.model record next ∧
      later.model = { next with time := reader.model.time + 1, decodedUntil := behind } := by
  obtain ⟨next, behind, applied, same⟩ := taken.applied
  have kept := congrArg Account.time ((Jitlog.atomic_apply (offset + 1) record).view_of_ok applied)
  have time : next.time = reader.model.time := kept
  refine ⟨next, behind, step_of_apply applied, ?_⟩
  rw [← time]
  exact same

/-- Credits do not depend on the time and the offset which are noted. -/
theorem Credits.advance
    {number count : UInt64}
    {kind : UInt8}
    {place : Option TracePoint}
    (credits : Credits forest next number kind count place)
    (time behind : Nat) :
    Credits forest { next with time, decodedUntil := behind } number kind count place where
  counted := credits.counted
  anomalies := credits.anomalies
  unchanged := credits.unchanged

/-- A counter which a reader takes is credited to the place which the history tells. -/
theorem Charts.credits_of_takes
    [Stream.Decompressor]
    {reader later : LogReader Jitlog.format}
    (charts : Charts past reader.model)
    {marker kind : UInt8}
    {offset : Nat}
    {number count : UInt64}
    (taken : reader.Takes marker offset (.counter number kind count) later) :
    Credits reader.model later.model number kind count (past.credited? number kind) ∧
      later.model.time = reader.model.time + 1 := by
  obtain ⟨next, behind, step, same⟩ := exists_step_of_takes taken
  cases step with
  | counter =>
      rw [same, ← charts.creditedPoint?_eq number kind]
      exact ⟨(credits_addCounter reader.model number kind count).advance _ _, rfl⟩

/-! ## Targets -/

/-- A reader whose forest leads from points to the traces which the history attached
to them. -/
structure FollowsTargets
    [Stream.Decompressor]
    (history : History)
    (reader : LogReader Jitlog.format) : Prop where
  /-- Without a redirect of a point, the links out of it lead to all traces which were
  attached to it, in the order of the records. -/
  all : ∀ origin,
    (∀ attachment ∈ history.attachmentsTo origin, ¬ attachment.supersedes) →
      (reader.model.linksFrom origin).map TraceLink.target =
        (history.attachmentsTo origin).map fun attachment => .entry attachment.target
  /-- Otherwise they lead to those since the last redirect. -/
  since : ∀ origin before last behind,
    history.attachmentsTo origin = before ++ last :: behind →
    last.supersedes →
    (∀ attachment ∈ behind, ¬ attachment.supersedes) →
      (reader.model.linksFrom origin).map TraceLink.target =
        (last :: behind).map fun attachment => .entry attachment.target
  /-- A record which attaches a trace to a point touches no link out of another one,
  neither where it begins nor where it ends. -/
  untouched : ∀ {marker offset record later attachment},
    reader.Takes marker offset record later →
    history.attachment? record = some attachment →
      ∀ id,
        linksBeside attachment.origin (later.model.linksOut id) =
            linksBeside attachment.origin (reader.model.linksOut id) ∧
          linksBeside attachment.origin (later.model.linksIn id) =
            linksBeside attachment.origin (reader.model.linksIn id)
  /-- A counter of the bridges of a point is credited to the trace to which it leads
  last, and to the point itself while it leads to none. -/
  counted : ∀ {marker offset descriptor count later origin},
    reader.Takes marker offset (.counter descriptor bridgeCounter count) later →
    history.summary.registered? descriptor = some origin →
    descriptor ∉ history.started →
      Credits reader.model later.model descriptor bridgeCounter count
        (some (((reader.model.linksFrom origin).map TraceLink.target).getLast?.getD origin))

/-- The links out of a point lead to its targets. -/
theorem Leads.map_target (leads : Leads past forest) (origin : TracePoint) :
    (forest.linksFrom origin).map TraceLink.target =
      (Jitlog.sinceLast Attachment.supersedes (past.attachmentsTo origin)).map
        fun attachment => .entry attachment.target := by
  rw [leads origin, History.targets, List.map_map, List.map_map]
  rfl

/-- A counter of bridges whose number is not the one of a trace counts the last target
of the point for which its descriptor was registered. -/
theorem credited?_bridgeCounter
    {descriptor : UInt64}
    {origin : TracePoint}
    (unstarted : descriptor ∉ history.started)
    (registered : history.summary.registered? descriptor = some origin) :
    history.credited? descriptor bridgeCounter =
      some ((history.lastTarget? origin).elim origin TracePoint.entry) := by
  unfold History.credited? History.counted?
  rw [if_neg unstarted, if_neg (by decide), if_neg (by decide), if_pos rfl, registered]
  rfl

/-- In every state of a reader of a trace log, the links out of every point are those
which the decoded records tell. -/
theorem followsTargets_of_reached
    [Stream.Decompressor]
    {source : Stream.Source}
    {chunk : Nat}
    {history : History}
    {reader : LogReader Jitlog.format}
    (reached : LogReader.Reached source chunk history reader) :
    FollowsTargets history reader := by
  have charts := charts_of_reached reached
  constructor
  case all =>
    intro origin unredirected
    rw [charts.leads.map_target, Jitlog.sinceLast_of_none unredirected]
  case since =>
    intro origin before last behind attached redirected unredirected
    rw [charts.leads.map_target, attached, Jitlog.sinceLast_append_cons redirected unredirected]
  case untouched =>
    intro marker offset record later attachment taken attached id
    obtain ⟨next, behind, step, same⟩ := exists_step_of_takes taken
    rw [same]
    exact (step.attaches charts.tracks attached).2 id
  case counted =>
    intro marker offset descriptor count later origin taken registered unstarted
    have credits := (charts.credits_of_takes taken).1
    rw [credited?_bridgeCounter unstarted registered] at credits
    have last := congrArg List.getLast? (charts.leads origin)
    rw [List.getLast?_map, last, List.getLast?_map]
    unfold History.lastTarget? at credits
    cases newest : (history.targets origin).getLast? with
    | none =>
        rw [newest] at credits
        exact credits
    | some target =>
        rw [newest] at credits
        exact credits

/-! ## A log with redirects -/

/-- Records by which two bridges are attached to a label, of which the second one is
then led to, and the first one again behind it.  Of the counters, some match no
trace. -/
def redirectedRecords : List Jitlog.Record :=
  [.opcodes [(1, labelName)],
    .startTrace 1 "loop" 0 (some ""),
    .enterStage .asm 1,
    .operation 1 "" (some "") (some 5),
    .startTrace 2 "bridge" 5 (some ""),
    .bounds 64 96,
    .startTrace 3 "bridge" 5 (some ""),
    .bounds 128 160,
    .stitchBridge 5 64,
    .stitchBridge 5 128,
    .redirect 5 6 3,
    .stitchBridge 6 64,
    .counter 6 bridgeCounter 7,
    .counter 9 bridgeCounter 4,
    .counter 5 labelCounter 2,
    .counter 8 labelCounter 1,
    .counter 6 bridgeCounter 3]

/-- A log with redirects. -/
def redirectedLog : Bytes :=
  [0x23, 3, 0, 0, 0, 0, 0, 0] ++ redirectedRecords.flatMap (Jitlog.Record.encode .eight)

/-- The label of the log with redirects. -/
def redirectedLabel : TracePoint :=
  { trace := 1, operation := some { stage := .asm, index := 0 } }

set_option maxRecDepth 8000 in
/-- The log with redirects is decoded to its records. -/
theorem reached_redirectedLog [Stream.Decompressor] :
    ∃ reader : LogReader Jitlog.format,
      LogReader.Reached (.ofBytes redirectedLog) 16 redirectedRecords.reverse reader := by
  obtain ⟨markers, last, supported, written⟩ :
      ∃ markers last,
        Jitlog.format.markers? stitchedHeader.version = some markers ∧
        LogReader.Written Jitlog.format { header := stitchedHeader, markers }
          (Jitlog.format.start stitchedHeader) 8 (redirectedLog.drop 8) redirectedRecords last := by
    exact ⟨_, _, rfl,
      .more (by decide) rfl rfl rfl (.more (by decide) rfl rfl rfl (.more (by decide) rfl rfl rfl
        (.more (by decide) rfl rfl rfl (.more (by decide) rfl rfl rfl
          (.more (by decide) rfl rfl rfl (.more (by decide) rfl rfl rfl
            (.more (by decide) rfl rfl rfl (.more (by decide) rfl rfl rfl
              (.more (by decide) rfl rfl rfl (.more (by decide) rfl rfl rfl
                (.more (by decide) rfl rfl rfl (.more (by decide) rfl rfl rfl
                  (.more (by decide) rfl rfl rfl (.more (by decide) rfl rfl rfl
                    (.more (by decide) rfl rfl rfl (.more (by decide) rfl rfl rfl
                      .none))))))))))))))))⟩
  obtain ⟨reader, reached, _⟩ :=
    LogReader.exists_reached_of_written (by decide) rfl supported written 16
  exact ⟨reader, reached⟩

attribute [local instance] Stream.Zstd.decompressor

/-- In the log with redirects, the label leads to the second bridge, and then to the
first one. -/
theorem followsTargets_of_redirectedLog :
    ∃ reader : LogReader Jitlog.format,
      LogReader.Reached (.ofBytes redirectedLog) 16 redirectedRecords.reverse reader ∧
      History.attachmentsTo redirectedRecords.reverse redirectedLabel =
        [⟨redirectedLabel, 2, false⟩, ⟨redirectedLabel, 3, false⟩, ⟨redirectedLabel, 3, true⟩,
          ⟨redirectedLabel, 2, false⟩] ∧
      FollowsTargets redirectedRecords.reverse reader ∧
      (reader.model.linksFrom redirectedLabel).map TraceLink.target = [.entry 3, .entry 2] := by
  obtain ⟨reader, reached⟩ := reached_redirectedLog
  have attached : History.attachmentsTo redirectedRecords.reverse redirectedLabel =
      [⟨redirectedLabel, 2, false⟩, ⟨redirectedLabel, 3, false⟩] ++
        ⟨redirectedLabel, 3, true⟩ :: [⟨redirectedLabel, 2, false⟩] := by decide
  have follows := followsTargets_of_reached reached
  exact ⟨reader, reached, attached, follows,
    follows.since redirectedLabel _ _ _ attached rfl (by simp)⟩

end Forest
end RuntimeLog
