import Mathlib.Data.List.Forall2
import RuntimeLog.Proofs.Forest.CodeHistory
import RuntimeLog.Proofs.Forest.MergePoints
import RuntimeLog.Proofs.Jitlog.Spellings
import RuntimeLog.Stream.Zstd.Decoder

/-!
# Decoded merge points

However the texts of merge points are written, a merge point which is decoded has the
values which are meant.  Stages may be left and entered again in between, and starts may be
declared for other fields, stages and traces: the forest keeps the fields which the history
tells, stage by stage.
-/

namespace RuntimeLog

open RuntimeLog.Jitlog (History LoggedPoint Tells)

namespace Forest

/-- A forest whose stages have the fields which a history tells, and the merge points which
were logged in them, in this order. -/
structure Recalls (past : History) (told : List LoggedPoint) (forest : Forest) : Prop where
  fields : ∀ id kind, ((forest.merging id).stages kind).fields = past.fields? id kind
  points : ∀ id kind, List.Forall₂ MergePoint.Holds ((forest.merging id).stages kind).points
    (told.filter (LoggedPoint.isIn id kind))

variable {past : History} {told : List LoggedPoint} {forest next : Forest}
variable {trace : Trace} {stage : Stage} {record : Jitlog.Record}
variable {id : UInt64} {kind : StageKind} {fields : List MergeField}
variable {written : List WrittenValue} {values : List (FieldType × FieldValue)}

theorem recalls_start (header : Header) : Recalls [] [] (start header) where
  fields _ _ := rfl
  points _ _ := .nil

/-- What is recalled are the traces. -/
theorem Recalls.congr (recalls : Recalls past told forest) (same : next.traces = forest.traces) :
    Recalls past told next := by
  refine ⟨fun id kind => ?_, fun id kind => ?_⟩ <;> rw [merging_congr same]
  · exact recalls.fields id kind
  · exact recalls.points id kind

/-! ## Stages -/

/-- The active stage is the one of which the history tells that it is. -/
theorem Tracks.isActive_iff
    (tracks : Tracks past.summary forest.outline)
    (active : forest.currentStage = .ok (trace, stage)) :
    past.currentTrace = some id ∧ past.activeStage = some kind ↔
      id = trace.id ∧ kind = stage.kind := by
  rw [(tracks.currentTrace_eq (active_of_currentStage active).1).1,
    (tracks.activeStage_eq active).1, Option.some.injEq, Option.some.injEq]
  exact and_congr eq_comm eq_comm

/-- The fields of the active stage are those which the history tells. -/
theorem Recalls.layout_eq
    (recalls : Recalls past told forest)
    (active : forest.currentStage = .ok (trace, stage)) :
    stage.layout = past.fields? trace.id stage.kind := by
  have same := recalls.fields trace.id stage.kind
  rw [stages_of_currentStage active] at same
  exact same

/-- The layout in force is the one of the active stage. -/
theorem currentLayout_of_active
    (active : forest.currentStage = .ok (trace, stage))
    (known : stage.layout = some fields) :
    forest.currentLayout = .ok fields := by
  unfold currentLayout
  rw [active]
  simp only [bind, Except.bind, known]
  rfl

/-- The stage which is active in a history with declared fields is active in the forest. -/
theorem Recalls.exists_currentStage
    (recalls : Recalls past told forest)
    (tracks : Tracks past.summary forest.outline)
    (current : past.currentTrace = some id)
    (active : past.activeStage = some kind)
    (declared : past.fields? id kind = some fields) :
    ∃ trace stage, forest.currentStage = .ok (trace, stage) ∧ trace.id = id ∧
      stage.kind = kind ∧ stage.layout = some fields := by
  have same := recalls.fields id kind
  rw [declared] at same
  cases found : forest.trace? id with
  | none =>
      rw [merging, found] at same
      cases same
  | some trace =>
      rw [merging_of_trace? found] at same
      change ((trace.stage? kind).elim Stage.Merging.empty Stage.merging).fields = _ at same
      cases entered : trace.stage? kind with
      | none =>
          rw [entered] at same
          cases same
      | some stage =>
          rw [entered] at same
          have started : forest.current = some id := tracks.current.trans current
          have stands : trace.activeKind = some kind := by
            have inside := tracks.active id current
            rw [show forest.outline.traces id = some trace.outline from
              congrArg (Option.map Trace.outline) found] at inside
            exact inside.trans active
          have here : forest.currentStage = .ok (trace, stage) := by
            have inside : trace.activeStage? = some stage := by
              rw [Trace.activeStage?, stands]
              exact entered
            unfold currentStage currentTrace
            rw [started]
            simp only [found, bind, Except.bind, inside]
            rfl
          exact ⟨trace, stage, here, by simpa using List.find?_some found,
            Trace.kind_of_stage? entered, same⟩

/-! ## Records which are no merge points -/

/-- Fields which are declared for the active stage are recalled there. -/
theorem Recalls.declare
    (recalls : Recalls past told forest)
    (tracks : Tracks past.summary forest.outline)
    (active : forest.currentStage = .ok (trace, stage))
    (declared : History.fields? (record :: past) trace.id stage.kind = some fields) :
    Recalls (record :: past) told
      (forest.modifyStage trace.id stage.kind fun stage =>
        { stage with layout := some fields }) := by
  have stages (id : UInt64) (kind : StageKind) := @stages_modifyStage forest trace stage
    (fun stage => { stage with layout := some fields }) (by intro _; rfl) active id kind
  refine ⟨fun id kind => ?_, fun id kind => ?_⟩
  · rw [stages]
    by_cases here : id = trace.id ∧ kind = stage.kind
    · obtain ⟨rfl, rfl⟩ := here
      rw [if_pos ⟨rfl, rfl⟩, declared]
      rfl
    · rw [if_neg here, History.fields?_cons_of_elsewhere fun inside =>
        here ((tracks.isActive_iff active).mp inside)]
      exact recalls.fields id kind
  · rw [stages]
    split
    · rename_i here
      obtain ⟨rfl, rfl⟩ := here
      have before := recalls.points trace.id stage.kind
      rw [stages_of_currentStage active] at before
      exact before
    · exact recalls.points id kind

/-- A record which is no merge point touches no merge point, and declares what the history
tells. -/
theorem Recalls.step
    (recalls : Recalls past told forest)
    (tracks : Tracks past.summary forest.outline)
    (step : forest.Step record next)
    (other : record.marker ≠ .mergePoint) :
    Recalls (record :: past) told next := by
  by_cases declaring : record.isDeclaring
  · cases step with
    | layout active =>
        obtain ⟨current, inside⟩ := (tracks.isActive_iff active).mpr ⟨rfl, rfl⟩
        exact recalls.declare tracks active (History.fields?_cons_layout current inside _)
    | sharedStart active known text =>
        obtain ⟨current, inside⟩ := (tracks.isActive_iff active).mpr ⟨rfl, rfl⟩
        rw [recalls.layout_eq active] at known
        exact recalls.declare tracks active (History.fields?_cons_sharedStart current inside known
          (Option.filter_eq_some_iff.mp text).1)
    | _ => cases declaring
  · have quiet : ¬ record.isMerging := by
      cases record with
      | layout | sharedStart => exact absurd rfl declaring
      | mergePoint => exact absurd rfl other
      | _ => exact Bool.false_ne_true
    have same := step.merging_eq quiet
    refine ⟨fun id kind => ?_, fun id kind => ?_⟩
    · rw [same, History.fields?_cons_of_silent declaring]
      exact recalls.fields id kind
    · rw [same]
      exact recalls.points id kind

/-! ## Merge points -/

/-- A merge point whose values have a meaning is appended. -/
theorem exists_addMergePoint
    (declared : forest.currentLayout = .ok fields)
    (resolved : resolveFrom 0 fields written = .ok values) :
    ∃ next, (addMergePoint written).run forest = .ok () next := by
  obtain ⟨trace, stage, active⟩ := exists_stage_of_currentLayout declared
  unfold addMergePoint
  rw [EStateM.run_bind, Update.run_look, declared]
  simp only
  rw [EStateM.run_bind, Update.run_look, resolved]
  simp only
  rw [EStateM.run_bind, Update.run_look, (active_of_currentStage active).1]
  simp only
  cases located : MergePoint.location? { index := 0, values := MergePoint.valuesOf values } with
  | none =>
      rw [EStateM.run_bind, Update.run_look, active]
      exact ⟨_, rfl⟩
  | some place =>
      simp only
      rw [EStateM.run_bind, EStateM.run_modify]
      simp only
      rw [EStateM.run_bind, Update.run_look, currentStage_addSourceLine active place.1 place.2]
      exact ⟨_, rfl⟩

/-- A merge point which is written for the fields of the active stage is appended with the
values which are meant. -/
theorem Recalls.mergePoint
    (recalls : Recalls past told forest)
    (tracks : Tracks past.summary forest.outline)
    (current : past.currentTrace = some id)
    (active : past.activeStage = some kind)
    (declared : past.fields? id kind = some fields)
    (spelled : SpellsAll fields written values)
    (step : forest.Step (.mergePoint written) next) :
    Recalls (.mergePoint written :: past) (told ++ [{ trace := id, stage := kind, values }])
      next := by
  cases step with
  | @mergePoint _ layout resolvedValues trace stage inForce resolved inside =>
      obtain ⟨rfl, rfl⟩ := (tracks.isActive_iff inside).mp ⟨current, active⟩
      have known := (recalls.layout_eq inside).trans declared
      cases (currentLayout_of_active inside known).symm.trans inForce
      cases (spelled.resolveFrom_eq 0).symm.trans resolved
      have stages := stages_appendPoint inside (MergePoint.valuesOf values)
      have silent : ¬ (Jitlog.Record.mergePoint written).isDeclaring := Bool.false_ne_true
      change Recalls _ _ (forest.appendPoint trace.id stage.kind (MergePoint.valuesOf values))
      refine ⟨fun id kind => ?_, fun id kind => ?_⟩
      · rw [stages, History.fields?_cons_of_silent silent]
        split
        · rename_i here
          obtain ⟨rfl, rfl⟩ := here
          exact recalls.layout_eq inside
        · exact recalls.fields id kind
      · rw [stages, List.filter_append]
        split
        · rename_i here
          obtain ⟨rfl, rfl⟩ := here
          have before := recalls.points trace.id stage.kind
          rw [stages_of_currentStage inside] at before
          rw [List.filter_cons_of_pos (by simp [LoggedPoint.isIn])]
          exact List.rel_append before (.cons
            (MergePoint.holds_valuesOf _ { trace := trace.id, stage := stage.kind, values }) .nil)
        · rename_i elsewhere
          have outside : ¬ LoggedPoint.isIn id kind
              { trace := trace.id, stage := stage.kind, values } := by
            intro inside
            simp only [LoggedPoint.isIn, Bool.and_eq_true, beq_iff_eq] at inside
            exact elsewhere ⟨inside.1.symm, inside.2.symm⟩
          rw [List.filter_cons_of_neg outside, List.filter_nil, List.append_nil]
          exact recalls.points id kind

end Forest

/-! ## Written logs -/

namespace Jitlog

open RuntimeLog.Forest (Recalls Tracks)

variable {past : History} {told points : List LoggedPoint} {records : List Record}
variable {forest : Forest}

/-- Records by which merge points are logged follow the layouts. -/
theorem Tells.followsLayouts
    (tells : Tells past records points)
    (tracks : Tracks past.summary forest.outline)
    (recalls : Recalls past told forest) :
    FollowsLayouts forest records := by
  induction tells generalizing told forest with
  | nil past => trivial
  | other other behind inductionHypothesis =>
      refine ⟨?_, fun next applied => ?_⟩
      · rename_i record _ _
        cases record with
        | mergePoint written => exact absurd rfl other
        | _ => trivial
      · have step := Forest.step_of_apply applied
        have next := recalls.step tracks step other
        exact inductionHypothesis (step.tracks tracks) (next.congr rfl)
  | mergePoint current active declared spelled behind inductionHypothesis =>
      refine ⟨fun layout inForce => ?_, fun next applied => ?_⟩
      · obtain ⟨trace, stage, inside, _, _, known⟩ :=
          recalls.exists_currentStage tracks current active declared
        cases (Forest.currentLayout_of_active inside known).symm.trans inForce
        exact spelled.kinds_eq
      · have step := Forest.step_of_apply applied
        have next := recalls.mergePoint tracks current active declared spelled step
        exact inductionHypothesis (step.tracks tracks) (next.congr rfl)

/-- What is applied of records by which merge points are logged behind others: the first ones,
up to one which cannot be applied and is no merge point. -/
structure Applies
    (past : History)
    (told : List LoggedPoint)
    (records : List Record)
    (points : List LoggedPoint)
    (replay : Replay Forest)
    (decoded : List Record)
    (here : List LoggedPoint) : Prop where
  tells : Tells past decoded here
  among : here <+: points
  time : replay.model.time = past.length + decoded.length
  recalls : replay.model.Recalls (decoded.reverse ++ past) (told ++ here)
  ended : decoded = records ∧ here = points ∧ replay.phase = .streaming ∨
    ∃ record others, records = decoded ++ record :: others ∧ record.marker ≠ .mergePoint ∧
      replay.phase = .faulted

/-- One more record is applied in front of the others. -/
theorem Applies.cons
    {record : Record}
    {decoded : List Record}
    {toldThen pointsThen here hereThen : List LoggedPoint}
    {replay : Replay Forest}
    (applies : Applies (record :: past) toldThen records pointsThen replay decoded hereThen)
    (tells : Tells past (record :: decoded) here)
    (among : here <+: points)
    (same : toldThen ++ hereThen = told ++ here)
    (whole : hereThen = pointsThen → here = points)
    (answers : List Status) :
    Applies past told (record :: records) points { replay with answers } (record :: decoded)
      here where
  tells := tells
  among := among
  time := by
    dsimp only
    rw [applies.time, List.length_cons, List.length_cons]
    omega
  recalls := by
    rw [List.reverse_cons, List.append_assoc, ← same]
    exact applies.recalls
  ended := by
    rcases applies.ended with ⟨all, last, streams⟩ | ⟨refused, others, split, unlike, faulted⟩
    · exact Or.inl ⟨congrArg (record :: ·) all, whole last, streams⟩
    · exact Or.inr ⟨refused, others, congrArg (record :: ·) split, unlike, faulted⟩

/-- Records by which merge points are logged are applied up to one which cannot be and is no
merge point. -/
theorem Tells.exists_applies
    (tells : Tells past records points)
    (tracks : Tracks past.summary forest.outline)
    (recalls : Recalls past told forest)
    (now : forest.time = past.length)
    (used : Script Record)
    (offset : Nat) :
    ∃ decoded here,
      Applies past told records points (format.replay used forest offset records) decoded here := by
  induction tells generalizing told forest offset with
  | nil past =>
      refine ⟨[], [], .nil past, List.nil_prefix, now, ?_, Or.inl ⟨rfl, rfl, rfl⟩⟩
      rw [List.append_nil]
      exact recalls
  | @other past record records points other behind inductionHypothesis =>
      cases applied : (format.apply (offset + 1) record).run forest with
      | ok value next =>
          have step : forest.Step record next := Forest.step_of_apply applied
          have later := recalls.step tracks step other
          have time := Forest.time_of_apply applied (offset + (used.encode record).length)
          rw [now] at time
          obtain ⟨decoded, here, applies⟩ := @inductionHypothesis told
            (format.advance next (offset + (used.encode record).length))
            (step.tracks tracks) (later.congr rfl) time (offset + (used.encode record).length)
          rw [LogFormat.replay_of_ok applied]
          exact ⟨_, _, applies.cons (.other other applies.tells) applies.among rfl id _⟩
      | error error left =>
          cases ledger.eq_of_error applied
          rw [LogFormat.replay_of_error applied]
          refine ⟨[], [], .nil past, List.nil_prefix, now, ?_,
            Or.inr ⟨record, records, rfl, other, rfl⟩⟩
          rw [List.append_nil]
          exact recalls.congr rfl
  | @mergePoint past records points trace stage fields written values current active declared
      spelled behind inductionHypothesis =>
      obtain ⟨_, _, inside, _, _, known⟩ :=
        recalls.exists_currentStage tracks current active declared
      obtain ⟨next, appended⟩ := Forest.exists_addMergePoint
        (Forest.currentLayout_of_active inside known) (spelled.resolveFrom_eq 0)
      have ran : (apply (offset + 1) (.mergePoint written)).run forest = .ok () next := appended
      have applied : (format.apply (offset + 1) (.mergePoint written)).run forest = .ok () next :=
        appended
      have step := Forest.step_mergePoint appended
      have later := recalls.mergePoint tracks current active declared spelled step
      have time := Forest.time_of_apply ran (offset + (used.encode (.mergePoint written)).length)
      rw [now] at time
      obtain ⟨decoded, here, applies⟩ := @inductionHypothesis _
        (format.advance next (offset + (used.encode (.mergePoint written)).length))
        (step.tracks tracks) (later.congr rfl) time
        (offset + (used.encode (.mergePoint written)).length)
      rw [LogFormat.replay_of_ok applied]
      exact ⟨_, _, applies.cons (.mergePoint current active declared spelled applies.tells)
        (List.cons_prefix_cons.mpr ⟨rfl, applies.among⟩) (List.append_cons _ _ _).symm
        (congrArg (_ :: ·)) _⟩

/-- What a reader in some state decoded of records by which merge points are logged. -/
structure Restores
    [Stream.Decompressor]
    (reader : LogReader format)
    (records : List Record)
    (points : List LoggedPoint)
    (decoded : List Record)
    (told : List LoggedPoint) : Prop where
  /-- The decoded records log the first ones of the merge points. -/
  tells : Tells [] decoded told
  among : told <+: points
  time : reader.model.time = decoded.length
  /-- In every stage the fields are those which the decoded records tell, and the merge points
  hold the values which are meant. -/
  recalls : reader.model.Recalls decoded.reverse told
  /-- All records are decoded, or the first other one is refused and no merge point. -/
  ended : decoded = records ∧ told = points ∧ reader.phase = .streaming ∨
    ∃ record others, records = decoded ++ record :: others ∧ record.marker ≠ .mergePoint ∧
      reader.phase = .faulted

/-- In a log of any version and word size, the texts of merge points can be written in
whatever way is valid where they stand: a reader never refuses them, and each merge point
which it decodes has the values which are meant. -/
theorem restores_of_write
    [Stream.Decompressor]
    {header : Header}
    {records : List Record}
    {points : List LoggedPoint}
    (begins : header.Begins formatFlag)
    (writable : ∀ record ∈ records, record.Writable header.words header.version)
    (tells : Tells [] records points)
    (tail : Bytes)
    (chunk : Nat) :
    ∃ reader : LogReader format,
      LogReader.open? format (.ofBytes ((write header records).toBytes ++ tail)) chunk =
        .ok reader ∧
      ∃ decoded told, Restores (reader.requests records.length).2 records points decoded told := by
  have tracks := Forest.tracks_start header
  have recalls := Forest.recalls_start header
  obtain ⟨reader, answered, replays, _⟩ :=
    exists_replays begins writable (tells.followsLayouts tracks recalls) tail chunk
  obtain ⟨decoded, told, applies⟩ :=
    tells.exists_applies tracks recalls rfl (script header.words) header.encode.length
  refine ⟨reader, answered, decoded, told, applies.tells, applies.among, ?_, ?_, ?_⟩
  · rw [replays.model_eq]
    exact applies.time.trans (Nat.zero_add _)
  · rw [replays.model_eq, ← List.append_nil decoded.reverse]
    exact applies.recalls
  · rw [replays.phase_eq]
    exact applies.ended

/-- Records by which merge points are logged in two stages, one of which is left and entered
again, and then an operation whose opcode was never declared. -/
def wovenRecords : List Record :=
  [.startTrace 1 "loop" 0 (some ""),
    .enterStage .noopt 1,
    .layout [⟨.fileName, .text⟩, ⟨.scope, .text⟩, ⟨.lineNumber, .integer⟩],
    .sharedStart 0 "/a",
    .mergePoint [.shared ".py", .whole "f", .integer 3],
    .enterStage .opt 1,
    .layout [⟨.fileName, .text⟩],
    .sharedStart 0 "/b",
    .mergePoint [.sharedOnly],
    .enterStage .noopt 1,
    .mergePoint [.sharedOnly, .whole "g", .integer 4],
    .operation 9 "" (some "") none]

/-- The merge points which are logged in two stages. -/
def wovenPoints : List LoggedPoint :=
  [⟨1, .noopt, [(.fileName, .text "/a.py"), (.scope, .text "f"), (.lineNumber, .integer 3)]⟩,
    ⟨1, .opt, [(.fileName, .text "/b")]⟩,
    ⟨1, .noopt, [(.fileName, .text "/a"), (.scope, .text "g"), (.lineNumber, .integer 4)]⟩]

attribute [local instance] Stream.Zstd.decompressor

/-- The texts of a file share the start which was declared for them when their stage is entered
again. -/
theorem restores_of_wovenRecords :
    ∃ reader : LogReader format,
      LogReader.open? format
          (.ofBytes ((write mergedHeader wovenRecords).toBytes ++ [0xff])) 16 =
        .ok reader ∧
      ∃ decoded told,
        Restores (reader.requests 12).2 wovenRecords wovenPoints decoded told := by
  have begins : mergedHeader.Begins formatFlag := ⟨rfl, ⟨by decide, by decide⟩, by decide⟩
  have writable : ∀ record ∈ wovenRecords,
      record.Writable mergedHeader.words mergedHeader.version := by decide
  have tells : Tells [] wovenRecords wovenPoints :=
    .other (by decide) (.other (by decide) (.other (by decide) (.other (by decide)
      (.mergePoint rfl rfl rfl
        (.cons (@MergeField.Spells.shared _ "/a" rfl rfl ".py")
          (.cons (.whole rfl "f") (.cons (.integer rfl 3) .nil)))
        (.other (by decide) (.other (by decide) (.other (by decide)
          (.mergePoint rfl rfl rfl (.cons (.sharedOnly rfl rfl) .nil)
            (.other (by decide)
              (.mergePoint rfl rfl rfl
                (.cons (.sharedOnly rfl rfl) (.cons (.whole rfl "g") (.cons (.integer rfl 4) .nil)))
                (.other (by decide) (.nil _))))))))))))
  exact restores_of_write begins writable tells [0xff] 16

end Jitlog
end RuntimeLog
