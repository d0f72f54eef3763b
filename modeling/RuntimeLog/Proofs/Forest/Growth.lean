import RuntimeLog.Proofs.Forest.CodeHistory
import RuntimeLog.Proofs.Forest.Tracking
import RuntimeLog.Proofs.Jitlog.SourceLines
import RuntimeLog.Proofs.Trace.Growth
import RuntimeLog.Stream.Zstd.Decoder

/-!
# Growth of forests

A record adds to a forest and takes nothing away from it.  Most of a trace is settled once
another one is started: a record reaches the stages of a trace only while it is the current
one, which it never is again.
-/

namespace RuntimeLog

open RuntimeLog.Jitlog (History)

/-! ## Indexes -/

namespace AddressMap

variable {α : Type} {before middle after map : AddressMap α}

/-- A map which has the entries of an earlier one. -/
def KeptIn (before after : AddressMap α) : Prop :=
  ∀ (address : UInt64) value, before[address]? = some value → after[address]? = some value

theorem KeptIn.refl (map : AddressMap α) : map.KeptIn map :=
  fun _ _ known => known

theorem KeptIn.trans (first : before.KeptIn middle) (second : middle.KeptIn after) :
    before.KeptIn after :=
  fun address value known => second address value (first address value known)

theorem keptIn_insertIfNew (map : AddressMap α) (address : UInt64) (value : α) :
    map.KeptIn (map.insertIfNew address value) := by
  intro other kept known
  rw [getElem?_insertIfNew, known]
  rfl

end AddressMap

/-- A line which is stored stays. -/
theorem SourceCache.get?_insert_of_some
    {cache : SourceCache}
    {file : String}
    {line : UInt16}
    {kept : SourceLine}
    (known : cache.get? file line = some kept)
    (other : String)
    (number : UInt16)
    (source : SourceLine) :
    (cache.insert other number source).get? file line = some kept := by
  rw [get?_insert, known]
  rfl

namespace Forest

/-- A forest to which records may have added. -/
structure Grows (before after : Forest) : Prop where
  /-- The traces stay, in the order in which they were started. -/
  traces : before.traces.GrowsBy Trace.Grows after.traces
  /-- The body of a trace stays as it is when another trace was started. -/
  settled : ∀ (place : Nat) trace, place + 1 < before.traces.size →
    before.traces.toList[place]? = some trace →
      ∃ later, after.traces.toList[place]? = some later ∧ later.body = trace.body
  opcodes : ∀ names, before.opcodes = some names → after.opcodes = some names
  descriptorPoints : before.descriptorPoints.KeptIn after.descriptorPoints
  labels : before.labels.KeptIn after.labels
  jumps : before.jumps.KeptIn after.jumps
  patches : before.patches.toList <+: after.patches.toList
  anomalies : before.anomalies.toList <+: after.anomalies.toList
  sourceLines : ∀ file line source, before.sourceCache.get? file line = some source →
    after.sourceCache.get? file line = some source

variable {forest next earlier later left right : Forest} {trace : Trace}

theorem Grows.refl (forest : Forest) : forest.Grows forest where
  traces := .refl .refl _
  settled _ trace _ found := ⟨trace, found, rfl⟩
  opcodes _ known := known
  descriptorPoints := .refl _
  labels := .refl _
  jumps := .refl _
  patches := List.prefix_rfl
  anomalies := List.prefix_rfl
  sourceLines _ _ _ known := known

theorem Grows.trans (first : earlier.Grows forest) (second : forest.Grows later) :
    earlier.Grows later where
  traces := first.traces.trans .trans second.traces
  settled place trace behind found := by
    obtain ⟨between, there, same⟩ := first.settled place trace behind found
    have still := Nat.lt_of_lt_of_le behind first.traces.size_le
    obtain ⟨last, known, sameThen⟩ := second.settled place between still there
    exact ⟨last, known, sameThen.trans same⟩
  opcodes names known := second.opcodes names (first.opcodes names known)
  descriptorPoints := first.descriptorPoints.trans second.descriptorPoints
  labels := first.labels.trans second.labels
  jumps := first.jumps.trans second.jumps
  patches := first.patches.trans second.patches
  anomalies := first.anomalies.trans second.anomalies
  sourceLines file line source known :=
    second.sourceLines file line source (first.sourceLines file line source known)

/-- Forests grow as those do which are alike. -/
theorem Grows.of_alike
    (grows : earlier.Grows later)
    (first : earlier.Alike left)
    (second : later.Alike right) :
    left.Grows right := by
  rw [alike_iff.mp first, alike_iff.mp second]
  exact { grows with }

/-! ## Parts of updates -/

/-- A change which does not reach the body of a trace. -/
theorem grows_modifyTrace
    {change : Trace → Trace}
    (grown : ∀ trace : Trace, trace.Grows (change trace))
    (same : ∀ trace, (change trace).body = trace.body)
    (forest : Forest)
    (id : UInt64) :
    forest.Grows (forest.modifyTrace id change) :=
  { Grows.refl forest with
    traces := Journal.growsBy_modify .refl fun trace _ => grown trace
    settled := fun place trace _ found => by
      have kept : forest.traces.GrowsBy (fun before after => after.body = before.body)
          (forest.modifyTrace id change).traces :=
        Journal.growsBy_modify (by intro _; rfl) fun trace _ => same trace
      exact kept place trace found }

/-- The newest trace is the one which changes if its id is asked for. -/
theorem traces_modifyNewest
    {older : Journal Trace}
    (newest : forest.traces = older.push trace)
    (change : Trace → Trace) :
    (forest.modifyTrace trace.id change).traces = older.push (change trace) := by
  unfold modifyTrace
  rw [newest]
  exact Journal.modify_push (by exact beq_self_eq_true trace.id) older change

/-- A change of the newest trace, which is not settled. -/
theorem grows_modifyNewest
    {older : Journal Trace}
    (newest : forest.traces = older.push trace)
    (change : Trace → Trace)
    (grown : trace.Grows (change trace)) :
    forest.Grows (forest.modifyTrace trace.id change) := by
  have changed := traces_modifyNewest newest change
  refine { Grows.refl forest with traces := ?_, settled := fun place settled behind found => ?_ }
  · rw [changed, newest]
    exact (Journal.GrowsBy.refl .refl older).push rfl grown
  · -- a trace before the newest one is not the one which changes
    rw [newest, Journal.size_push] at behind
    have inside : place < older.toList.length := by
      rw [Journal.length_toList]
      omega
    rw [newest, Journal.toList_push, List.getElem?_append_left inside] at found
    exact ⟨settled, by rw [changed, Journal.toList_push, List.getElem?_append_left inside, found],
      rfl⟩

theorem grows_report (forest : Forest) (anomaly : Anomaly) :
    forest.Grows (forest.report anomaly) :=
  { Grows.refl forest with
    anomalies := by
      rw [report, Journal.toList_push]
      exact List.prefix_append _ _ }

/-- A descriptor keeps the point for which it was registered first. -/
theorem grows_registerDescriptor
    (forest : Forest)
    (descriptor : UInt64)
    (point : TracePoint) :
    forest.Grows (forest.registerDescriptor descriptor point) := by
  have kept : forest.descriptorPoints.KeptIn
      (forest.registerDescriptor descriptor point).descriptorPoints := by
    intro other origin known
    rw [getElem?_registerDescriptor, known]
    rfl
  unfold registerDescriptor at kept ⊢
  split
  · exact grows_report _ _
  · rename_i missing
    rw [missing] at kept
    exact { Grows.refl forest with descriptorPoints := kept }

theorem grows_indexDescriptor
    (forest : Forest)
    (descriptor : UInt64)
    (name : String)
    (point : TracePoint) :
    forest.Grows (forest.indexDescriptor descriptor name point) := by
  refine (grows_registerDescriptor forest descriptor point).trans ?_
  unfold indexDescriptor
  dsimp only
  split
  · exact { Grows.refl _ with labels := AddressMap.keptIn_insertIfNew _ _ _ }
  · split
    · exact { Grows.refl _ with jumps := AddressMap.keptIn_insertIfNew _ _ _ }
    · exact .refl _

theorem grows_indexNext
    (forest : Forest)
    (point : TracePoint)
    (name : String)
    (descriptor : Option UInt64)
    (counted : Option Descriptor) :
    forest.Grows (forest.indexNext point name descriptor counted) := by
  have counts (indexed : Forest) (counter : Descriptor) :
      indexed.Grows
        { indexed with
          counterPoints := indexed.counterPoints.insert counter.number point } :=
    { Grows.refl indexed with }
  unfold indexNext
  cases descriptor with
  | none =>
      cases counted with
      | none => exact .refl forest
      | some counter => exact counts _ counter
  | some number =>
      have indexed := forest.grows_indexDescriptor number name point
      cases counted with
      | none => exact indexed
      | some counter => exact indexed.trans (counts _ counter)

/-- Links are not part of the body of a trace. -/
theorem grows_modifyLinks
    (linksOut linksIn : Trace → Journal TraceLink)
    (forest : Forest)
    (id : UInt64) :
    forest.Grows (forest.modifyTrace id fun trace =>
      { trace with linksOut := linksOut trace, linksIn := linksIn trace }) :=
  grows_modifyTrace (by exact fun trace => { Trace.Grows.refl trace with }) (by intro _; rfl) _ _

theorem grows_link (forest : Forest) (origin target : TracePoint) :
    forest.Grows (forest.link origin target) :=
  link_preserves forest.Grows (fun _ _ _ _ grows => grows.trans (grows_modifyLinks _ _ _ _))
    (.refl forest) _ _

theorem grows_unlink (forest : Forest) (origin : TracePoint) :
    forest.Grows (forest.unlink origin) :=
  unlink_preserves forest.Grows (fun _ _ _ _ grows => grows.trans (grows_modifyLinks _ _ _ _))
    (.refl forest) _

theorem grows_addCounter (forest : Forest) (number count : UInt64) (kind : UInt8) :
    forest.Grows (forest.addCounter number kind count) := by
  unfold addCounter
  split
  · exact grows_modifyTrace (fun trace => trace.grows_count _ _) (fun trace => trace.body_count _ _)
      _ _
  · exact grows_report _ _

theorem grows_abortTrace (forest : Forest) (id : UInt64) :
    forest.Grows (forest.abortTrace id) := by
  unfold abortTrace
  split
  · refine grows_modifyTrace (fun trace => ?_) (by intro _; rfl) _ _
    exact { Trace.Grows.refl trace with aborted := fun _ => rfl }
  · exact grows_report _ _

/-- Bounds are set for the newest trace, which has none. -/
theorem grows_place
    {older : Journal Trace}
    (newest : forest.traces = older.push trace)
    (unknown : trace.bounds = none)
    (start finish : UInt64) :
    forest.Grows (forest.place trace.id start finish) := by
  have bounded := grows_modifyNewest newest
    (fun trace => { trace with bounds := some (start, finish) })
    (Trace.grows_bounds unknown _)
  unfold place
  dsimp only
  split
  · split
    · exact { bounded with }
    · refine Grows.trans ?_ (grows_report _ _)
      exact { bounded with }
  · exact { bounded with }

/-- Source lines keep the text with which they were stored. -/
theorem grows_addSourceLines
    (forest : Forest)
    (file : String)
    (lines : List (UInt16 × SourceLine)) :
    forest.Grows (forest.addSourceLines file lines) :=
  { Grows.refl forest with
    sourceLines := by
      intro other number kept known
      unfold addSourceLines
      dsimp only
      induction lines generalizing forest with
      | nil => exact known
      | cons entry lines inductionHypothesis =>
          exact inductionHypothesis { forest with
              sourceCache := forest.sourceCache.insert file entry.1 entry.2 }
            (SourceCache.get?_insert_of_some known _ _ _) }

/-- A started trace is behind all others. -/
theorem grows_push (forest : Forest) (trace : Trace) (current : Option UInt64) :
    forest.Grows { forest with traces := forest.traces.push trace, current } :=
  { Grows.refl forest with
    traces := Journal.growsBy_push .refl _ _
    settled := fun place settled _ found => by
      have kept : forest.traces.GrowsBy (fun before after => after.body = before.body)
          (forest.traces.push trace) :=
        Journal.growsBy_push (by intro _; rfl) _ _
      exact kept place settled found }

/-! ## Steps -/

/-- A forest whose current trace is the one which was started last. -/
def EndsInCurrent (forest : Forest) : Prop :=
  ∀ trace, forest.currentTrace = .ok trace →
    ∃ older : Journal Trace, forest.traces = older.push trace

/-- A forest which tracks a history ends in its current trace. -/
theorem Tracks.endsInCurrent
    {past : History}
    (tracks : Tracks past.summary forest.outline) :
    forest.EndsInCurrent := by
  intro trace current
  obtain ⟨started, _⟩ := tracks.currentTrace_eq current
  have ids : forest.traces.toList.map Trace.id = past.started := tracks.ids
  have last : (forest.traces.toList.map Trace.id).getLast? = some trace.id := by
    rw [ids, past.getLast?_started]
    exact started
  rw [Journal.toList, List.map_reverse, List.getLast?_reverse, List.head?_map] at last
  obtain ⟨newest, first, own⟩ := Option.map_eq_some_iff.mp last
  obtain ⟨older, appended⟩ := List.head?_eq_some_iff.mp first
  have found := (id_of_currentTrace current).2
  unfold trace? Journal.find? at found
  rw [appended, List.find?_cons_of_pos (by simp [own])] at found
  cases found
  exact ⟨⟨older⟩, congrArg Journal.mk appended⟩

/-- The current trace may grow. -/
theorem grows_currentTrace
    (ends : forest.EndsInCurrent)
    (current : forest.currentTrace = .ok trace)
    (change : Trace → Trace)
    (grown : trace.Grows (change trace)) :
    forest.Grows (forest.modifyTrace trace.id change) := by
  obtain ⟨older, newest⟩ := ends trace current
  exact grows_modifyNewest newest change grown

/-- The active stage of the current trace may grow. -/
theorem grows_currentStage
    {stage : Stage}
    (ends : forest.EndsInCurrent)
    (active : forest.currentStage = .ok (trace, stage))
    (change : Stage → Stage)
    (grown : stage.Grows (change stage)) :
    forest.Grows (forest.modifyStage trace.id stage.kind change) := by
  refine grows_currentTrace ends (active_of_currentStage active).1 _
    (Trace.grows_modifyStage fun inner found => ?_)
  cases (found_of_currentStage active).2.symm.trans found
  exact grown

/-- A merge point is appended behind its source line. -/
theorem grows_mergePoint
    (ends : forest.EndsInCurrent)
    (current : forest.currentTrace = .ok trace)
    (kind : StageKind)
    (point : MergePoint) :
    forest.Grows ((forest.noteLocation trace.id point).modifyStage trace.id kind
      fun stage => stage.pushMergePoint point.values) := by
  obtain ⟨older, newest⟩ := ends trace current
  have appended {noted : Forest} {lined : Trace}
      (own : lined.id = trace.id)
      (still : noted.traces = older.push lined) :
      noted.Grows (noted.modifyStage trace.id kind fun stage =>
        stage.pushMergePoint point.values) := by
    rw [← own]
    exact grows_modifyNewest still _
      (Trace.grows_modifyStage fun stage _ => stage.grows_pushMergePoint _)
  unfold noteLocation
  split
  · rename_i file line _
    have lined : trace.Grows (trace.addSourceLine file line) := { Trace.Grows.refl trace with }
    exact (grows_modifyNewest newest (fun trace => trace.addSourceLine file line) lined).trans
      (appended lined.id (traces_modifyNewest newest _))
  · exact appended rfl newest

/-- A record adds to a forest whose current trace is the newest one. -/
theorem Step.grows
    {record : Jitlog.Record}
    (step : forest.Step record next)
    (ends : forest.EndsInCurrent) :
    forest.Grows next := by
  cases step with
  | inputArguments current => exact grows_currentTrace ends current _ { Trace.Grows.refl _ with }
  | opcodes undeclared =>
      exact { Grows.refl forest with
        opcodes := fun names known => by simp [undeclared] at known }
  | operation named active =>
      exact (grows_currentStage ends active _ (Stage.grows_pushOperation _ _)).trans
        (grows_indexNext _ _ _ _ _)
  | boundsAgain => exact grows_report _ _
  | bounds current unknown =>
      obtain ⟨older, newest⟩ := ends _ current
      exact grows_place newest unknown _ _
  | codeIgnored => exact grows_report _ _
  | code active last bare =>
      exact grows_currentStage ends active _ (Stage.grows_attachCode last bare _)
  | enterStage current => exact grows_currentTrace ends current _ (Trace.grows_enterStage _ _)
  | bridgeUnattached => exact grows_report _ _
  | stitchBridge => exact grows_link _ _ _
  | startTrace => exact grows_push _ _ _
  | counter => exact grows_addCounter _ _ _ _
  | layout active => exact grows_currentStage ends active _ { Stage.Grows.refl _ with }
  | mergePoint declared resolved active =>
      exact grows_mergePoint ends (active_of_currentStage active).1 _ _
  | sharedStart active => exact grows_currentStage ends active _ { Stage.Grows.refl _ with }
  | abortTrace => exact grows_abortTrace _ _
  | sourceLines => exact grows_addSourceLines _ _ _
  | redirectIgnored => exact grows_report _ _
  | redirect =>
      have led (origin : TracePoint) (target : UInt64) :
          forest.Grows ((forest.unlink origin).link origin (.entry target)) :=
        (grows_unlink _ _).trans (grows_link _ _ _)
      split
      · exact led _ _
      · exact (led _ _).trans (grows_registerDescriptor _ _ _)
  | patch =>
      exact { Grows.refl forest with
        patches := by
          rw [addPatch, Journal.toList_push]
          exact List.prefix_append _ _ }

/-- A record adds to the forest to which it is applied. -/
theorem grows_of_apply
    {past : History}
    {record : Jitlog.Record}
    {offset : Nat}
    (tracks : Tracks past.summary forest.outline)
    (applied : (Jitlog.apply offset record).run forest = .ok () next)
    (behind : Nat) :
    forest.Grows (Jitlog.format.advance next behind) :=
  { (step_of_apply applied).grows tracks.endsInCurrent with }

end Forest

/-! ## Histories -/

namespace Jitlog

open RuntimeLog.Forest (Tracks)

variable {header : Header} {history newer older : History} {forest later : Forest}

/-- The forest of a history tracks it. -/
theorem tracks_of_forest? (made : history.forest? header = some forest) :
    Tracks history.summary forest.outline := by
  induction history generalizing forest with
  | nil =>
      cases made
      exact Forest.tracks_start header
  | cons record past inductionHypothesis =>
      obtain ⟨earlier, next, before, applied, rfl⟩ := forest?_cons_eq_some made
      exact (Forest.step_of_apply applied).tracks (inductionHypothesis before)

/-- The forest of a history grew from those of its beginnings. -/
theorem grows_of_forest? (made : History.forest? header (newer ++ older) = some later) :
    ∃ earlier, older.forest? header = some earlier ∧ earlier.Grows later := by
  induction newer generalizing later with
  | nil => exact ⟨later, made, .refl later⟩
  | cons record newer inductionHypothesis =>
      obtain ⟨forest, next, before, applied, rfl⟩ := forest?_cons_eq_some made
      obtain ⟨earlier, known, grows⟩ := inductionHypothesis before
      exact ⟨earlier, known, grows.trans
        (Forest.grows_of_apply (tracks_of_forest? before) applied 0)⟩

/-- Every beginning of the records which a reader decoded was decoded in an earlier state.
The forest grew from the one of any reader in such a state, and its time passed by one for
every record since. -/
theorem grows_of_reached
    [Stream.Decompressor]
    {source : Stream.Source}
    {chunk : Nat}
    {reader : LogReader format}
    (reached : LogReader.Reached source chunk (newer ++ older) reader) :
    (∃ before : LogReader format, LogReader.Reached source chunk older before) ∧
      ∀ {other : Stream.Source} {size : Nat} {before : LogReader format},
        LogReader.Reached other size older before →
          before.model.Grows reader.model ∧
            reader.model.time = before.model.time + newer.length := by
  refine ⟨reached.earlier, fun stopped => ⟨?_, ?_⟩⟩
  · obtain ⟨later, made, alikeLater⟩ := alike_of_reached reached reader.header
    obtain ⟨earlier, known, grows⟩ := grows_of_forest? made
    obtain ⟨same, knownSame, alikeEarlier⟩ := alike_of_reached stopped reader.header
    cases known.symm.trans knownSame
    exact grows.of_alike alikeEarlier alikeLater
  · rw [(dated_of_reached reached).2, (dated_of_reached stopped).2, List.length_append,
      Nat.add_comm]

attribute [local instance] Stream.Zstd.decompressor

/-- In the log with a bridge, the first trace is settled when the bridge is started: it is
linked and counted afterwards, and its body stays. -/
theorem grows_of_stitchedLog :
    ∃ before reader : LogReader format,
      LogReader.Reached (.ofBytes Forest.stitchedLog) 16
        (Forest.stitchedRecords.take 6).reverse before ∧
      LogReader.Reached (.ofBytes Forest.stitchedLog) 16
        ((Forest.stitchedRecords.drop 6).reverse ++ (Forest.stitchedRecords.take 6).reverse)
        reader ∧
      before.model.traces.size = 2 ∧
      before.model.Grows reader.model ∧
      reader.model.time = before.model.time + 4 := by
  obtain ⟨reader, reached, _⟩ := Forest.reached_stitchedLog
  rw [← List.take_append_drop 6 Forest.stitchedRecords, List.reverse_append] at reached
  obtain ⟨⟨before, stopped⟩, grown⟩ := grows_of_reached reached
  obtain ⟨grows, time⟩ := grown stopped
  have started : before.model.ids = [1, 2] := (Forest.tracks_of_reached stopped).ids
  have size : before.model.traces.size = 2 := by
    rw [← Journal.length_toList, ← List.length_map Trace.id]
    exact congrArg List.length started
  exact ⟨before, reader, stopped, reached, size, grows, time⟩

end Jitlog
end RuntimeLog
