import Mathlib.Data.List.Nodup
import RuntimeLog.Proofs.Forest.MergePoints
import RuntimeLog.Proofs.Jitlog.SourceLines
import RuntimeLog.Proofs.Space.Traces
import RuntimeLog.Stream.Zstd.Decoder

/-!
# Extraction of source lines

The source lines of a trace are those of its merge points, in whatever stages these were
logged.  To extract them from files adds to the cache what the files have for lines which
no record and no earlier extraction stored, and nothing else.
-/

namespace RuntimeLog

/-! ## Lines of merge points -/

/-- Whether some merge point of a trace is at a line of a file. -/
def Trace.MergesAt (trace : Trace) (file : String) (line : UInt64) : Prop :=
  ∃ stage ∈ trace.stages.toList, ∃ point ∈ stage.mergePoints, point.location? = some (file, line)

/-- Source lines which are those of merge points. -/
def Trace.Merging.ListsLines (told : Trace.Merging) : Prop :=
  ∀ file line, line ∈ told.sourceLines.getD file ∅ ↔
    ∃ point ∈ told.points, point.location? = some (file, line)

theorem Trace.listsLines_empty : Trace.Merging.empty.ListsLines := by
  intro file line
  simp [Merging.empty]

namespace Forest

variable {forest next : Forest} {trace : Trace} {stage : Stage}

/-- A change of the active stage which keeps its merge points keeps the lines listed. -/
theorem listsLines_modifyStage
    {change : Stage → Stage}
    (kept : ∀ stage, (change stage).mergePoints = stage.mergePoints)
    (active : forest.currentStage = .ok (trace, stage))
    (id : UInt64)
    (lists : (forest.merging id).ListsLines) :
    ((forest.modifyStage trace.id stage.kind change).merging id).ListsLines := by
  obtain ⟨points, lines⟩ := points_modifyStage_of_same kept active id
  intro file line
  rw [points, lines]
  exact lists file line

/-- An appended merge point is listed with its line. -/
theorem listsLines_appendPoint
    (active : forest.currentStage = .ok (trace, stage))
    (values : FieldValues)
    (id : UInt64)
    (lists : (forest.merging id).ListsLines) :
    ((forest.appendPoint trace.id stage.kind values).merging id).ListsLines := by
  intro file line
  obtain ⟨points, lines⟩ := mem_appendPoint active values id
  rw [lines, lists file line]
  constructor
  · rintro (⟨point, known, located⟩ | ⟨here, located⟩)
    · exact ⟨point, (points point).mpr (Or.inl known), located⟩
    · exact ⟨_, (points _).mpr (Or.inr ⟨here, rfl⟩), located⟩
  · rintro ⟨point, among, located⟩
    rcases (points point).mp among with known | ⟨here, rfl⟩
    · exact Or.inl ⟨point, known, located⟩
    · exact Or.inr ⟨here, located⟩

/-- A record keeps the source lines of all traces those of their merge points. -/
theorem Step.listsLines
    {record : Jitlog.Record}
    (step : forest.Step record next)
    (lists : ∀ id, (forest.merging id).ListsLines)
    (id : UInt64) :
    (next.merging id).ListsLines := by
  by_cases merging : record.isMerging
  · cases step with
    | layout active | sharedStart active =>
        exact listsLines_modifyStage (by intro _; rfl) active id (lists id)
    | mergePoint declared resolved active =>
        exact listsLines_appendPoint active _ id (lists id)
    | _ => cases merging
  · rw [step.merging_eq merging]
    exact lists id

/-- In every forest the source lines of a trace are those of its merge points. -/
theorem Made.listsLines
    [Stream.Decompressor]
    (made : forest.Made)
    (id : UInt64) :
    (forest.merging id).ListsLines := by
  induction made generalizing id with
  | start header => exact Trace.listsLines_empty
  | reached reached =>
      refine @holds_of_reached _ (fun _ forest => ∀ id, (forest.merging id).ListsLines) _ _ _ _
        reached (fun _ _ => Trace.listsLines_empty) (fun same lists => ?_)
        (fun step _ lists => step.listsLines lists) id
      rw [merging_congr same]
      exact lists
  | extracted before files inductionHypothesis => exact inductionHypothesis id

/-- The source lines of a trace of a forest are those of its merge points. -/
theorem Made.mem_sourceLines
    [Stream.Decompressor]
    (made : forest.Made)
    (member : trace ∈ forest.traces.toList)
    (file : String)
    (line : UInt64) :
    line ∈ trace.sourceLines.getD file ∅ ↔ trace.MergesAt file line := by
  obtain ⟨past, tracks⟩ := made.exists_tracks
  have lists := made.listsLines trace.id file line
  rw [merging_of_trace? (tracks.trace?_of_mem member)] at lists
  refine lists.trans ?_
  simp only [Trace.merging, Trace.mergePoints, List.mem_flatMap, Trace.MergesAt]
  constructor
  · rintro ⟨point, ⟨stage, entered, known⟩, located⟩
    exact ⟨stage, entered, point, known, located⟩
  · rintro ⟨stage, entered, point, known, located⟩
    exact ⟨point, ⟨stage, entered, known⟩, located⟩

end Forest

/-! ## Numbers of lines -/

namespace SourceCache

variable {cache : SourceCache} {file : String} {line : UInt16}

/-- No place has two lines in a cache. -/
theorem nodup_lines (cache : SourceCache) : cache.lines.Nodup := by
  refine List.nodup_flatMap.mpr ⟨fun entry _ => ?_, ?_⟩
  · refine List.Pairwise.map _ ?_ Std.ExtTreeMap.distinct_keys_toList
    intro first second different same
    exact different (Std.LawfulEqCmp.compare_eq_iff_eq.mpr (congrArg PlacedLine.line same))
  · refine Std.ExtTreeMap.distinct_keys_toList.imp ?_
    intro first second different placed one two
    obtain ⟨_, _, rfl⟩ := List.mem_map.mp one
    obtain ⟨_, _, same⟩ := List.mem_map.mp two
    exact different (Std.LawfulEqCmp.compare_eq_iff_eq.mpr (congrArg PlacedLine.file same).symm)

/-- The size of a cache is the number of its lines. -/
theorem size_eq (cache : SourceCache) : cache.size = cache.lines.length := by
  unfold size SourceCache.lines
  rw [List.length_flatMap, List.sum_eq_foldl, List.foldl_map]
  simp only [List.length_map, Std.ExtTreeMap.length_toList]

/-- A line which was not there before is one more. -/
theorem size_insert_of_none (missing : cache.get? file line = none) (source : SourceLine) :
    (cache.insert file line source).size = cache.size + 1 := by
  have fresh : ({ file, line, source } : PlacedLine) ∉ cache.lines := by
    intro known
    rw [mem_lines, missing] at known
    cases known
  have lines : (cache.insert file line source).lines.Perm ({ file, line, source } :: cache.lines) := by
    refine (List.perm_ext_iff_of_nodup (nodup_lines _)
      (List.nodup_cons.mpr ⟨fresh, cache.nodup_lines⟩)).mpr fun entry => ?_
    rw [List.mem_cons, mem_lines, mem_lines, get?_insert]
    by_cases here : file = entry.file ∧ line = entry.line
    · obtain ⟨rfl, rfl⟩ := here
      rw [missing]
      cases entry
      simp [eq_comm]
    · have other : entry ≠ { file, line, source } := by
        rintro rfl
        exact here ⟨rfl, rfl⟩
      simp [here, other]
  rw [size_eq, size_eq, lines.length_eq, List.length_cons]

end SourceCache

/-! ## Extraction -/

namespace SourceFiles

/-- The line of the files which is wanted for a place, if a record could carry it. -/
def placed? (files : SourceFiles) (place : String × UInt64) : Option PlacedLine :=
  if place.2.toNat < UInt16.size then
    (files.line? place.1 place.2.toUInt16).map fun raw =>
      { file := place.1, line := place.2.toUInt16, source := .ofRaw raw }
  else none

/-- The line which is wanted for a place is the one at this place. -/
theorem placed?_eq_some {files : SourceFiles} {place : String × UInt64} {entry : PlacedLine} :
    files.placed? place = some entry ↔
      place = (entry.file, entry.line.toUInt64) ∧
        ∃ raw, files.line? entry.file entry.line = some raw ∧ entry.source = .ofRaw raw := by
  obtain ⟨file, line⟩ := place
  unfold placed?
  constructor
  · intro wanted
    split at wanted
    · rename_i small
      obtain ⟨raw, there, rfl⟩ := Option.map_eq_some_iff.mp wanted
      refine ⟨Prod.ext rfl (UInt64.toNat_inj.mp ?_), raw, there, rfl⟩
      have whole : line.toNat % 2 ^ 16 = line.toNat := Nat.mod_eq_of_lt small
      rw [UInt16.toNat_toUInt64, UInt64.toNat_toUInt16, whole]
    · cases wanted
  · rintro ⟨same, raw, there, source⟩
    cases same
    have small : entry.line.toNat < UInt16.size := entry.line.toNat_lt
    simp [small, there, ← source]

/-- What the files have for a place is found exactly if the place is looked up. -/
theorem find?_placed {files : SourceFiles} {places : List (String × UInt64)} {file : String}
    {line : UInt16} {source : SourceLine} :
    ((places.filterMap files.placed?).find? fun entry =>
        entry.file = file ∧ entry.line = line).map PlacedLine.source = some source ↔
      (file, line.toUInt64) ∈ places ∧
        ∃ raw, files.line? file line = some raw ∧ source = .ofRaw raw := by
  constructor
  · intro found
    obtain ⟨entry, first, rfl⟩ := Option.map_eq_some_iff.mp found
    obtain ⟨rfl, rfl⟩ : entry.file = file ∧ entry.line = line := by
      simpa using List.find?_some first
    obtain ⟨place, among, wanted⟩ := List.mem_filterMap.mp (List.mem_of_find?_eq_some first)
    obtain ⟨rfl, there⟩ := placed?_eq_some.mp wanted
    exact ⟨among, there⟩
  · rintro ⟨among, raw, there, rfl⟩
    have listed : ({ file, line, source := .ofRaw raw } : PlacedLine) ∈
        places.filterMap files.placed? :=
      List.mem_filterMap.mpr ⟨_, among, placed?_eq_some.mpr ⟨rfl, raw, there, rfl⟩⟩
    -- the first line for the place is the same one, since the files tell it
    cases first : (places.filterMap files.placed?).find? fun entry =>
        entry.file = file ∧ entry.line = line with
    | none => simpa using List.find?_eq_none.mp first _ listed
    | some entry =>
        obtain ⟨rfl, rfl⟩ : entry.file = file ∧ entry.line = line := by
          simpa using List.find?_some first
        obtain ⟨place, _, wanted⟩ := List.mem_filterMap.mp (List.mem_of_find?_eq_some first)
        obtain ⟨_, other, same, source⟩ := placed?_eq_some.mp wanted
        cases there.symm.trans same
        exact congrArg some source

end SourceFiles

namespace Forest

variable {files : SourceFiles} {cache : SourceCache} {count : Nat}

/-- A line is extracted by storing what the files have for its place. -/
theorem extractLine_eq (place : String × UInt64) :
    extractLine files (cache, count) place.1 place.2 =
      match files.placed? place with
      | none => (cache, count)
      | some entry =>
          match cache.get? entry.file entry.line with
          | some _ => (cache, count)
          | none => (cache.insert entry.file entry.line entry.source, count + 1) := by
  unfold extractLine SourceFiles.placed?
  split
  · dsimp only
    cases files.line? place.1 place.2.toUInt16 with
    | none => cases cache.get? place.1 place.2.toUInt16 <;> rfl
    | some raw =>
        dsimp only [Option.map_some]
        cases cache.get? place.1 place.2.toUInt16 <;> rfl
  · rfl

/-- A line which is extracted is stored like one of a record, and counted if it is new. -/
theorem extractLine_spec (place : String × UInt64) :
    (extractLine files (cache, count) place.1 place.2).1 =
        cache.store (files.placed? place).toList ∧
      (extractLine files (cache, count) place.1 place.2).1.size + count =
        cache.size + (extractLine files (cache, count) place.1 place.2).2 := by
  rw [extractLine_eq]
  cases files.placed? place with
  | none => exact ⟨rfl, rfl⟩
  | some entry =>
      dsimp only [Option.toList_some, SourceCache.store, List.foldl_cons, List.foldl_nil]
      cases known : cache.get? entry.file entry.line with
      | some kept =>
          refine ⟨?_, rfl⟩
          rw [SourceCache.insert, known]
      | none =>
          refine ⟨rfl, ?_⟩
          dsimp only
          rw [SourceCache.size_insert_of_none known]
          omega

/-- Lines which are extracted are stored one after the other, and counted if they are
new. -/
theorem extractLines_spec (places : List (String × UInt64)) (cache : SourceCache) (count : Nat) :
    (places.foldl (fun cache entry => extractLine files cache entry.1 entry.2) (cache, count)).1 =
        cache.store (places.filterMap files.placed?) ∧
      (places.foldl (fun cache entry => extractLine files cache entry.1 entry.2)
          (cache, count)).1.size + count =
        cache.size +
          (places.foldl (fun cache entry => extractLine files cache entry.1 entry.2)
            (cache, count)).2 := by
  induction places generalizing cache count with
  | nil => exact ⟨rfl, rfl⟩
  | cons place places inductionHypothesis =>
      obtain ⟨stored, counted⟩ := @extractLine_spec files cache count place
      rw [List.foldl_cons]
      generalize extractLine files (cache, count) place.1 place.2 = first at stored counted
      obtain ⟨next, total⟩ := first
      dsimp only at stored counted
      obtain ⟨storedThen, countedThen⟩ := inductionHypothesis next total
      refine ⟨?_, by omega⟩
      rw [storedThen, stored, ← SourceCache.store_append]
      cases wanted : files.placed? place <;> simp [wanted]

/-- Lines which are stored already are not extracted again. -/
theorem extractLines_of_stored
    {places : List (String × UInt64)}
    (stored : ∀ place ∈ places, ∀ entry, files.placed? place = some entry →
      (cache.get? entry.file entry.line).isSome)
    (count : Nat) :
    places.foldl (fun cache entry => extractLine files cache entry.1 entry.2) (cache, count) =
      (cache, count) := by
  induction places with
  | nil => rfl
  | cons place places inductionHypothesis =>
      obtain ⟨first, others⟩ := List.forall_mem_cons.mp stored
      have same : extractLine files (cache, count) place.1 place.2 = (cache, count) := by
        rw [extractLine_eq]
        cases wanted : files.placed? place with
        | none => rfl
        | some entry =>
            obtain ⟨kept, known⟩ := Option.isSome_iff_exists.mp (first entry wanted)
            dsimp only
            rw [known]
      rw [List.foldl_cons, same]
      exact inductionHypothesis others

/-- The places of the merge points of all traces are looked up. -/
theorem mem_referencedLines {forest : Forest} {file : String} {line : UInt64} :
    (file, line) ∈ forest.referencedLines ↔
      ∃ trace ∈ forest.traces.toList, line ∈ trace.sourceLines.getD file ∅ := by
  have listed (lines : LineSets) :
      (file, line) ∈ lines.toList.flatMap (fun entry =>
        entry.2.toList.map fun line => (entry.1, line)) ↔ line ∈ lines.getD file ∅ := by
    simp only [List.mem_flatMap, List.mem_map, Prod.exists, Prod.mk.injEq,
      Std.ExtTreeMap.mem_toList_iff_getElem?_eq_some, Std.ExtTreeSet.mem_toList,
      Std.ExtTreeMap.getD_eq_getD_getElem?]
    constructor
    · rintro ⟨name, set, known, number, among, rfl, rfl⟩
      rw [known]
      exact among
    · intro among
      cases known : lines[file]? with
      | none =>
          rw [known] at among
          exact absurd among Std.ExtTreeSet.not_mem_empty
      | some set =>
          rw [known] at among
          exact ⟨file, set, known, line, among, rfl, rfl⟩
  unfold referencedLines
  rw [List.mem_flatMap]
  simp only [listed]

/-- What becomes of a forest and of its cache when source lines are extracted. -/
structure Extracts (forest : Forest) (files : SourceFiles) : Prop where
  /-- The source lines of a trace are those of its merge points, in all of its stages. -/
  sourceLines : ∀ trace ∈ forest.traces.toList, ∀ file line,
    line ∈ trace.sourceLines.getD file ∅ ↔ trace.MergesAt file line
  /-- Nothing but the cache changes. -/
  kept : (forest.extractSources files).1 =
    { forest with sourceCache := (forest.extractSources files).1.sourceCache }
  /-- A line which was stored stays, and one which was not is stored exactly if there is a
  merge point at it and the files have it. -/
  lines : ∀ file line source,
    (forest.extractSources files).1.sourceCache.get? file line = some source ↔
      forest.sourceCache.get? file line = some source ∨
        forest.sourceCache.get? file line = none ∧
          (∃ trace ∈ forest.traces.toList, trace.MergesAt file line.toUInt64) ∧
          ∃ raw, files.line? file line = some raw ∧ source = .ofRaw raw
  /-- The lines are counted which were not there before. -/
  count : (forest.extractSources files).1.sourceCache.size =
    forest.sourceCache.size + (forest.extractSources files).2
  /-- To extract them again changes nothing. -/
  again : (forest.extractSources files).1.extractSources files =
    ((forest.extractSources files).1, 0)

/-- Whether a line is stored after the extraction. -/
theorem get?_extractSources {forest : Forest} {file : String} {line : UInt16}
    {source : SourceLine} :
    (forest.extractSources files).1.sourceCache.get? file line = some source ↔
      forest.sourceCache.get? file line = some source ∨
        forest.sourceCache.get? file line = none ∧
          (file, line.toUInt64) ∈ forest.referencedLines ∧
          ∃ raw, files.line? file line = some raw ∧ source = .ofRaw raw := by
  have stored : (forest.extractSources files).1.sourceCache =
      forest.sourceCache.store (forest.referencedLines.filterMap files.placed?) :=
    (extractLines_spec forest.referencedLines forest.sourceCache 0).1
  rw [stored, SourceCache.get?_store, Option.or_eq_some_iff, SourceFiles.find?_placed]

/-- Whatever log a forest was decoded from, the extraction of its source lines adds to the
cache the lines of its merge points which the files have, and counts them. -/
theorem Made.extracts
    [Stream.Decompressor]
    {forest : Forest}
    (made : forest.Made)
    (files : SourceFiles) :
    forest.Extracts files where
  sourceLines trace member := made.mem_sourceLines member
  kept := rfl
  lines file line source := by
    have named : (file, line.toUInt64) ∈ forest.referencedLines ↔
        ∃ trace ∈ forest.traces.toList, trace.MergesAt file line.toUInt64 := by
      rw [mem_referencedLines]
      exact exists_congr fun trace =>
        and_congr_right fun member => made.mem_sourceLines member file line.toUInt64
    rw [get?_extractSources, named]
  count := (extractLines_spec forest.referencedLines forest.sourceCache 0).2
  again := by
    have known : ∀ place ∈ forest.referencedLines, ∀ entry,
        files.placed? place = some entry →
          ((forest.extractSources files).1.sourceCache.get? entry.file entry.line).isSome := by
      intro place member entry wanted
      obtain ⟨rfl, raw, there, source⟩ := SourceFiles.placed?_eq_some.mp wanted
      cases before : forest.sourceCache.get? entry.file entry.line with
      | some kept => exact Option.isSome_of_eq_some (get?_extractSources.mpr (Or.inl before))
      | none =>
          exact Option.isSome_of_eq_some
            (get?_extractSources.mpr (Or.inr ⟨before, member, raw, there, source⟩))
    have unchanged := extractLines_of_stored known 0
    have same : (forest.extractSources files).1.referencedLines = forest.referencedLines := rfl
    rw [extractSources, same, unchanged]

/-- Records by which merge points of two traces are logged, in three stages.  A line is
carried by the log itself, one is that of two merge points, and one has too great a
number. -/
def citedRecords : List Jitlog.Record :=
  [.startTrace 1 "loop" 0 (some ""),
    .enterStage .noopt 1,
    .layout [⟨.fileName, .text⟩, ⟨.lineNumber, .integer⟩],
    .mergePoint [.whole "a", .integer 1],
    .enterStage .opt 1,
    .layout [⟨.fileName, .text⟩, ⟨.lineNumber, .integer⟩],
    .mergePoint [.whole "a", .integer 2],
    .startTrace 2 "loop" 0 (some ""),
    .enterStage .asm 2,
    .layout [⟨.lineNumber, .integer⟩, ⟨.fileName, .text⟩],
    .mergePoint [.integer 2, .whole "a"],
    .mergePoint [.integer 65538, .whole "a"],
    .sourceLines "a" [(1, ⟨4, "x"⟩)]]

/-- A log with merge points of two traces. -/
def citedLog : Bytes :=
  [0x23, 3, 0, 0, 0, 0, 0, 0] ++ citedRecords.flatMap (Jitlog.Record.encode .eight)

/-- A file with two lines. -/
def citedFiles : SourceFiles :=
  (∅ : SourceFiles).insert "a" "y\n  z\n"

attribute [local instance] Stream.Zstd.decompressor

set_option maxRecDepth 8000 in
/-- Of the lines of the merge points of two traces, one is stored already and one is
extracted, once. -/
theorem extracts_of_citedLog :
    ∃ reader : LogReader Jitlog.format,
      LogReader.Reached (.ofBytes citedLog) 16 citedRecords.reverse reader ∧
      reader.model.Extracts citedFiles ∧
      (reader.model.extractSources citedFiles).2 = 1 ∧
      (reader.model.extractSources citedFiles).1.sourceCache.get? "a" 1 = some ⟨4, "x"⟩ ∧
      (reader.model.extractSources citedFiles).1.sourceCache.get? "a" 2 = some ⟨2, "z"⟩ := by
  obtain ⟨markers, last, supported, written, extracted⟩ :
      ∃ markers last,
        Jitlog.format.markers? stitchedHeader.version = some markers ∧
        LogReader.Written Jitlog.format { header := stitchedHeader, markers }
          (Jitlog.format.start stitchedHeader) 8 (citedLog.drop 8) citedRecords last ∧
        (last.extractSources citedFiles).2 = 1 ∧
        (last.extractSources citedFiles).1.sourceCache.get? "a" 1 = some ⟨4, "x"⟩ ∧
        (last.extractSources citedFiles).1.sourceCache.get? "a" 2 = some ⟨2, "z"⟩ := by
    exact ⟨_, _, rfl,
      .more (by decide) rfl rfl rfl (.more (by decide) rfl rfl rfl (.more (by decide) rfl rfl rfl
        (.more (by decide) rfl rfl rfl (.more (by decide) rfl rfl rfl
          (.more (by decide) rfl rfl rfl (.more (by decide) rfl rfl rfl
            (.more (by decide) rfl rfl rfl (.more (by decide) rfl rfl rfl
              (.more (by decide) rfl rfl rfl (.more (by decide) rfl rfl rfl
                (.more (by decide) rfl rfl rfl (.more (by decide) rfl rfl rfl
                  .none)))))))))))), rfl, rfl, rfl⟩
  obtain ⟨reader, reached, same⟩ :=
    LogReader.exists_reached_of_written (by decide) rfl supported written 16
  have extracts := (Made.reached reached).extracts citedFiles
  rw [← same] at extracted
  exact ⟨reader, reached, extracts, extracted⟩

end Forest
end RuntimeLog
