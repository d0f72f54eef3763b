import RuntimeLog.Proofs.Forest.Alike
import RuntimeLog.Proofs.Jitlog.Records
import RuntimeLog.Proofs.LogReader.Faults
import RuntimeLog.Proofs.LogReader.Requests
import RuntimeLog.Stream.Zstd.Decoder

/-!
# Replays of trace logs

A trace log which is written by a writer is decoded record by record to the forest
which the records make when they are applied in turn, and the first record which
cannot be applied is its fault.  What the records make does not depend on the
header, and what follows a record plays no part in it.
-/

namespace RuntimeLog

open RuntimeLog.Forest (Alike)

namespace Jitlog

/-- The log which is written for a header and records. -/
def write (header : Header) (records : List Record) : Writer :=
  records.foldl (fun writer record => writer.pushAll (.u8 record.marker.byte :: record.fields))
    ((Writer.empty header.words).pushAll header.fields)

/-- How the records of trace logs are written. -/
def script (words : WordSize) : Script Record where
  marker record := record.marker.byte
  payload record := Field.encodeAll words record.fields

/-- What becomes of records which are applied one after the other behind a
header. -/
def replay (header : Header) (records : List Record) : Replay Forest :=
  format.replay (script header.words) (format.start header) header.encode.length records

/-- Records whose merge points are written for the layout which is in force where
they stand. -/
def FollowsLayouts : Forest → List Record → Prop
  | _, [] => True
  | forest, record :: records =>
      record.Follows forest ∧
        ∀ next, (apply 0 record).run forest = .ok () next →
          FollowsLayouts (format.advance next 0) records

variable {header : Header} {markers : MarkerTable Marker} {records : List Record}
variable {left right forest : Forest}

/-! ## Written logs -/

/-- A log consists of its header and its records. -/
theorem toBytes_write (header : Header) (records : List Record) :
    (write header records).toBytes =
      header.encode ++ (script header.words).encodeAll records := by
  have behind (writer : Writer) :
      (records.foldl (fun writer record =>
          writer.pushAll (.u8 record.marker.byte :: record.fields)) writer).toBytes =
        writer.toBytes ++ (script writer.words).encodeAll records := by
    induction records generalizing writer with
    | nil => simp
    | cons record records inductionHypothesis =>
        rw [List.foldl_cons, inductionHypothesis, Writer.words_pushAll, Writer.toBytes_pushAll,
          List.append_assoc]
        rfl
  rw [write, behind, Writer.words_pushAll, Writer.toBytes_pushAll]
  rfl

/-! ## Records in a log -/

/-- A merge point one of whose values has no meaning is not appended. -/
theorem run_addMergePoint_of_error
    {values : List WrittenValue}
    {error : DecodeError}
    (failed : (forest.currentLayout.bind fun layout => Forest.resolveFrom 0 layout values) =
      .error error) :
    (Forest.addMergePoint values).run forest = .error error forest := by
  rw [Forest.addMergePoint, EStateM.run_bind, Update.run_look]
  cases declared : forest.currentLayout with
  | error cause =>
      rw [declared] at failed
      cases failed
      rfl
  | ok layout =>
      rw [declared] at failed
      dsimp only [Except.bind] at failed ⊢
      rw [EStateM.run_bind, Update.run_look, failed]

/-- The verdict on the bytes of a record which can be written is that on the record,
whatever follows. -/
theorem judge_encode
    (known : ∀ marker meaning, markers.lookup marker = .ok meaning ↔
      meaning.IsIn header.version ∧ meaning.byte = marker)
    {record : Record}
    (writable : record.Writable header.words header.version)
    (follows : record.Follows forest)
    (offset : Nat)
    (rest : Bytes) :
    format.judge { header, markers } forest offset ((script header.words).encode record ++ rest) =
      format.verdictOn (script header.words) forest offset record := by
  have found := (known record.marker.byte record.marker).mpr ⟨writable.marker_isIn, rfl⟩
  by_cases other : record.marker ≠ .mergePoint
  · exact LogFormat.judge_of_complete found
      ((Record.accepts_reading writable other _).run_append rest)
  · obtain ⟨values, rfl⟩ : ∃ values, record = .mergePoint values := by
      cases record with
      | mergePoint values => exact ⟨values, rfl⟩
      | enterStage kind => cases kind <;> simp [Record.marker, Marker.enter] at other
      | operation opcode arguments failArguments descriptor =>
          cases descriptor <;> simp [Record.marker] at other
      | _ => simp [Record.marker] at other
    have reads := Record.reads_mergePointReading follows writable.fits
    cases resolved : forest.currentLayout.bind fun layout =>
        Forest.resolveFrom 0 layout values with
    | ok meanings =>
        rw [resolved] at reads
        exact LogFormat.judge_of_complete found ((reads _).run_append rest)
    | error error =>
        -- the reading and the update fail for the same reason
        rw [resolved] at reads
        obtain ⟨used, malformed⟩ := reads (offset + 1) rest
        rw [LogFormat.verdictOn_of_error (run_addMergePoint_of_error resolved)]
        change format.judge _ _ _ (Marker.mergePoint.byte ::
          (Field.encodeAll header.words (Record.mergePoint values).fields ++ rest)) = _
        have read : (format.payload header forest .mergePoint).run (offset + 1)
            (Field.encodeAll header.words (Record.mergePoint values).fields ++ rest) =
              .malformed error used := malformed
        have sort : markers.lookup Marker.mergePoint.byte = .ok .mergePoint := found
        rw [LogFormat.judge, sort]
        dsimp only
        rw [read]
        rfl

/-! ## Logs which are alike -/

/-- A record which follows the layout of a forest follows that of every one which is
alike. -/
theorem follows_of_alike
    {record : Record}
    (alike : left.Alike right)
    (follows : record.Follows left) :
    record.Follows right := by
  rw [Forest.alike_iff.mp alike]
  cases record <;> exact follows

/-- Records which are applied to forests which are alike fail at the same place if
they do, and make forests which are alike. -/
theorem alike_replay
    (alike : left.Alike right)
    (first second : Script Record)
    (offset other : Nat) :
    (format.replay first left offset records).phase =
        (format.replay second right other records).phase ∧
      (format.replay first left offset records).model.Alike
        (format.replay second right other records).model := by
  induction records generalizing left right offset other with
  | nil => exact ⟨rfl, alike⟩
  | cons record records inductionHypothesis =>
      cases applied : (format.apply (offset + 1) record).run left with
      | ok value next =>
          obtain ⟨after, appliedAfter, alikeAfter⟩ := alike.apply applied (other + 1)
          rw [LogFormat.replay_of_ok applied, LogFormat.replay_of_ok appliedAfter]
          exact inductionHypothesis (alikeAfter.advance _ _) _ _
      | error error kept =>
          cases failed : (format.apply (other + 1) record).run right with
          | ok value next =>
              obtain ⟨_, made, _⟩ := alike.symm.apply failed (offset + 1)
              cases applied.symm.trans made
          | error cause left =>
              rw [LogFormat.replay_of_error applied, LogFormat.replay_of_error failed]
              cases ledger.eq_of_error applied
              cases ledger.eq_of_error failed
              exact ⟨rfl, alike.stop _ _⟩

/-- Records among which there is no merge point follow the layouts, whatever these
are. -/
theorem followsLayouts_of_others
    (others : ∀ record ∈ records, record.marker ≠ .mergePoint)
    (forest : Forest) :
    FollowsLayouts forest records := by
  induction records generalizing forest with
  | nil => trivial
  | cons record records inductionHypothesis =>
      obtain ⟨first, rest⟩ := List.forall_mem_cons.mp others
      refine ⟨?_, fun next _ => inductionHypothesis rest _⟩
      cases record with
      | mergePoint values => exact absurd rfl first
      | _ => trivial

/-! ## Decoding of written logs -/

/-- Records which can be written, and whose merge points follow the layouts in force,
are read back whatever follows. -/
theorem legible_of_follows
    (known : ∀ marker meaning, markers.lookup marker = .ok meaning ↔
      meaning.IsIn header.version ∧ meaning.byte = marker)
    (writable : ∀ record ∈ records, record.Writable header.words header.version)
    (alike : left.Alike right)
    (follows : FollowsLayouts left records)
    (offset : Nat) :
    format.Legible (script header.words) { header, markers } right offset records := by
  induction records generalizing left right offset with
  | nil => trivial
  | cons record records inductionHypothesis =>
      obtain ⟨first, others⟩ := List.forall_mem_cons.mp writable
      refine ⟨Bool.false_ne_true, fun rest => ?_, fun next applied => ?_⟩
      · exact judge_encode known first (follows_of_alike alike follows.1) offset rest
      · obtain ⟨before, made, alikeBefore⟩ := alike.symm.apply applied 0
        exact inductionHypothesis others (alikeBefore.symm.advance _ _) (follows.2 before made) _

/-- Records which were all applied leave no fault, and the first one which was not
leaves one. -/
theorem fault_replay
    (sound : forest.fault = none)
    (used : Script Record)
    (offset : Nat) :
    (format.replay used forest offset records).model.fault = none ↔
      (format.replay used forest offset records).phase = .streaming := by
  induction records generalizing forest offset with
  | nil => exact iff_of_true sound rfl
  | cons record records inductionHypothesis =>
      cases applied : (format.apply (offset + 1) record).run forest with
      | ok value next =>
          have still (behind : Nat) : (format.advance next behind).fault = none :=
            (ledger.fault_of_ok applied).trans sound
          rw [LogFormat.replay_of_ok applied]
          exact inductionHypothesis (still _) _
      | error error left =>
          rw [LogFormat.replay_of_error applied]
          exact iff_of_false nofun nofun

/-- A written log opens, and its reader answers requests for the records as a replay
of them tells, whatever follows them. -/
theorem exists_replays
    [Stream.Decompressor]
    (begins : header.Begins formatFlag)
    (writable : ∀ record ∈ records, record.Writable header.words header.version)
    (follows : FollowsLayouts (Forest.start header) records)
    (tail : Bytes)
    (chunk : Nat) :
    ∃ reader : LogReader format,
      LogReader.open? format (.ofBytes ((write header records).toBytes ++ tail)) chunk =
        .ok reader ∧
      reader.Replays records.length (replay header records) ∧
      (tail = [] ∨ (replay header records).phase = .faulted →
        reader.readToEnd = .ok (replay header records).model) := by
  obtain ⟨markers, supported, known⟩ := exists_markers begins.supported
  rw [toBytes_write, List.append_assoc]
  obtain ⟨reader, answered, stands⟩ :=
    Header.Begins.exists_stands (show header.Begins format.flag from begins) (by decide) supported
      ((script header.words).encodeAll records ++ tail) chunk
  have legible := legible_of_follows known writable (Alike.refl _) follows header.encode.length
  exact ⟨reader, answered, LogReader.replays_of_legible stands legible,
    LogReader.readToEnd_of_legible stands legible⟩

/-- A written log of any version and word size is decoded record by record to what
becomes of its records: each takes up its own bytes and is applied to the forest
which those before it made, whatever follows, and decoding ends with a fault at the
first one which cannot be applied.  Behind any other header the same records make a
forest which tells the same about the traces. -/
theorem replays_of_write
    [Stream.Decompressor]
    {header : Header}
    {records : List Record}
    (begins : header.Begins formatFlag)
    (writable : ∀ record ∈ records, record.Writable header.words header.version)
    (follows : FollowsLayouts (Forest.start header) records)
    (tail : Bytes)
    (chunk : Nat) :
    ∃ reader : LogReader format,
      LogReader.open? format (.ofBytes ((write header records).toBytes ++ tail)) chunk =
        .ok reader ∧
      reader.Replays records.length (replay header records) ∧
      ((replay header records).phase = .streaming ∧
          (replay header records).offset = (write header records).length ∨
        (replay header records).phase = .faulted) ∧
      (tail = [] ∨ (replay header records).phase = .faulted →
        reader.readToEnd = .ok (replay header records).model) ∧
      ∀ other : Header,
        (replay header records).phase = (replay other records).phase ∧
          (replay header records).model.Alike (replay other records).model := by
  obtain ⟨reader, answered, replays, ended⟩ := exists_replays begins writable follows tail chunk
  refine ⟨reader, answered, replays, ?_, ended, fun other => ?_⟩
  · have size : (write header records).length =
        header.encode.length + ((script header.words).encodeAll records).length := by
      rw [← List.length_append, ← toBytes_write]
      exact (Array.length_toList).symm
    rw [size]
    exact LogFormat.phase_replay
  · exact alike_replay (Forest.alike_start header other) _ _ _ _

/-- The header of a log with merge points. -/
def mergedHeader : Header :=
  { formatFlag, version := 2, words := .four, machine := "" }

/-- Records by which merge points are logged behind a shared start, and then an
operation whose opcode was never declared. -/
def mergedRecords : List Record :=
  [.startTrace 1 "loop" 0 (some ""),
    .enterStage .noopt 1,
    .layout [⟨.fileName, .text⟩, ⟨.lineNumber, .integer⟩],
    .sharedStart 0 "/",
    .mergePoint [.shared "a", .integer 3],
    .mergePoint [.sharedOnly, .integer 4],
    .operation 9 "" (some "") none]

attribute [local instance] Stream.Zstd.decompressor

set_option maxRecDepth 8000 in
/-- A log with merge points is decoded up to the operation which cannot be
appended. -/
theorem replays_of_mergedRecords :
    ∃ reader : LogReader format,
      LogReader.open? format
          (.ofBytes ((write mergedHeader mergedRecords).toBytes ++ [0xff, 0xff])) 16 =
        .ok reader ∧
      (reader.requests 7).1 =
        [.ok (.decoded 0x1a 8), .ok (.decoded 0x16 29), .ok (.decoded 0x1c 34),
          .ok (.decoded 0x1e 40), .ok (.decoded 0x1d 47), .ok (.decoded 0x1d 63), .ok .faulted] ∧
      (reader.requests 7).2.model.fault =
        some { offset := 74, marker := some 0x12, error := .unknownOpcode 9 75 } ∧
      (reader.requests 7).2.model.time = 6 := by
  have begins : mergedHeader.Begins formatFlag := ⟨rfl, ⟨by decide, by decide⟩, by decide⟩
  have writable : ∀ record ∈ mergedRecords,
      record.Writable mergedHeader.words mergedHeader.version := by decide
  have follows : FollowsLayouts (Forest.start mergedHeader) mergedRecords := by
    refine ⟨trivial, fun _ made => ?_⟩
    cases made
    refine ⟨trivial, fun _ made => ?_⟩
    cases made
    refine ⟨trivial, fun _ made => ?_⟩
    cases made
    refine ⟨trivial, fun _ made => ?_⟩
    cases made
    refine ⟨fun _ declared => ?_, fun _ made => ?_⟩
    · cases declared
      rfl
    cases made
    refine ⟨fun _ declared => ?_, fun _ made => ?_⟩
    · cases declared
      rfl
    cases made
    refine ⟨trivial, fun _ made => ?_⟩
    cases made
  obtain ⟨reader, answered, replays, _⟩ := replays_of_write begins writable follows [0xff, 0xff] 16
  refine ⟨reader, answered, replays.answers_eq.trans rfl, ?_, ?_⟩
  · exact (congrArg Forest.fault replays.model_eq).trans rfl
  · exact (congrArg Forest.time replays.model_eq).trans rfl

end Jitlog
end RuntimeLog
