import RuntimeLog.Proofs.Forest.Alike
import RuntimeLog.Proofs.Forest.MachineCode
import RuntimeLog.Proofs.Jitlog.Replay
import RuntimeLog.Stream.Zstd.Decoder

/-!
# Machine code at earlier times

The records which were decoded make the forest.  Those which follow change neither
the machine code of an operation nor the patches which were made, so that looking
back to the time of a record is the same as not to decode what follows it.
-/

namespace RuntimeLog

open RuntimeLog.Jitlog (History)

/-- The patch which a record makes at some time. -/
def Jitlog.Record.patchAt? (time : Nat) : Jitlog.Record → Option CodePatch
  | .patch address bytes => some { time, address, bytes }
  | _ => none

namespace Forest

variable {forest next earlier later left right : Forest}

/-! ## Patches -/

theorem patches_unlink (forest : Forest) (origin : TracePoint) :
    (forest.unlink origin).patches = forest.patches := by
  apply unlink_preserves fun later => later.patches = forest.patches
  case kept => exact fun _ _ _ _ same => same
  case before => rfl

/-- A record makes no patch but its own, which is the last one. -/
theorem Step.patches_eq {record : Jitlog.Record} (step : forest.Step record next) :
    next.patches.toList = forest.patches.toList ++ (record.patchAt? forest.time).toList := by
  have same (kept : next.patches = forest.patches) (other : record.patchAt? forest.time = none) :
      next.patches.toList = forest.patches.toList ++ (record.patchAt? forest.time).toList := by
    rw [kept, other]
    exact (List.append_nil _).symm
  cases step with
  | operation =>
      refine same ?_ rfl
      obtain ⟨_, _, _, _, _, indexed⟩ := exists_indexNext_eq _ _ _ _ _
      rw [indexed]
      rfl
  | bounds =>
      refine same ?_ rfl
      unfold place
      dsimp only
      split
      · split <;> rfl
      · rfl
  | counter =>
      refine same ?_ rfl
      unfold addCounter
      split <;> rfl
  | mergePoint =>
      refine same ?_ rfl
      unfold noteLocation
      split <;> rfl
  | abortTrace =>
      refine same ?_ rfl
      unfold Forest.abortTrace
      split <;> rfl
  | redirect =>
      refine same ?_ rfl
      split
      · exact patches_unlink _ _
      · obtain ⟨_, _, registered⟩ := exists_registerDescriptor_eq _ _ _
        rw [registered]
        exact patches_unlink _ _
  | patch => exact Journal.toList_push _ _
  | _ => exact same rfl rfl

/-- A forest whose patches were made before its time, one after the other. -/
structure Dated (forest : Forest) : Prop where
  ordered : (forest.patches.toList.map CodePatch.time).Pairwise (· < ·)
  past : ∀ patch ∈ forest.patches.toList, patch.time < forest.time

/-- A forest which has the machine code and the patches of an earlier one, and other
patches only from the time of the earlier one on. -/
structure Extends (earlier later : Forest) : Prop where
  code : earlier.KeepsCode later
  time_le : earlier.time ≤ later.time
  patches : ∃ newer, later.patches.toList = earlier.patches.toList ++ newer ∧
    ∀ patch ∈ newer, earlier.time ≤ patch.time

theorem Extends.refl (forest : Forest) : forest.Extends forest where
  code := .refl forest
  time_le := Nat.le_refl _
  patches := ⟨[], (List.append_nil _).symm, nofun⟩

theorem Extends.trans (first : earlier.Extends forest) (second : forest.Extends later) :
    earlier.Extends later where
  code := first.code.trans second.code
  time_le := Nat.le_trans first.time_le second.time_le
  patches := by
    obtain ⟨newer, made, after⟩ := first.patches
    obtain ⟨newest, madeThen, afterThen⟩ := second.patches
    refine ⟨newer ++ newest, by rw [madeThen, made, List.append_assoc], fun patch member => ?_⟩
    rcases List.mem_append.mp member with before | last
    · exact after patch before
    · exact Nat.le_trans first.time_le (afterThen patch last)

/-- Forests extend each other as those do which are alike. -/
theorem Extends.of_alike
    (grows : earlier.Extends later)
    (first : earlier.Alike left)
    (second : later.Alike right) :
    left.Extends right := by
  rw [alike_iff.mp first, alike_iff.mp second]
  exact ⟨grows.code, grows.time_le, grows.patches⟩

/-- A patch of a record is made at the time of the forest. -/
theorem time_of_patchAt?
    {record : Jitlog.Record}
    {time : Nat}
    {patch : CodePatch}
    (made : record.patchAt? time = some patch) :
    patch.time = time := by
  cases record with
  | patch address bytes =>
      cases made
      rfl
  | _ => cases made

/-- The time passes with every record. -/
theorem time_of_apply
    {record : Jitlog.Record}
    {offset : Nat}
    (applied : (Jitlog.apply offset record).run forest = .ok () next)
    (behind : Nat) :
    (Jitlog.format.advance next behind).time = forest.time + 1 :=
  congrArg (· + 1) (congrArg Account.time ((Jitlog.atomic_apply offset record).view_of_ok applied))

/-- A record extends the forest to which it is applied. -/
theorem extends_of_apply
    {record : Jitlog.Record}
    {offset : Nat}
    (applied : (Jitlog.apply offset record).run forest = .ok () next)
    (behind : Nat) :
    forest.Extends (Jitlog.format.advance next behind) where
  code := (step_of_apply applied).keepsCode
  time_le := time_of_apply applied behind ▸ Nat.le_succ forest.time
  patches := by
    refine ⟨_, (step_of_apply applied).patches_eq, fun patch member => ?_⟩
    exact Nat.le_of_eq (time_of_patchAt? (Option.mem_toList.mp member)).symm

/-- A record which is applied to a forest dates its patch behind the others. -/
theorem Dated.apply
    (dated : forest.Dated)
    {record : Jitlog.Record}
    {offset : Nat}
    (applied : (Jitlog.apply offset record).run forest = .ok () next)
    (behind : Nat) :
    (Jitlog.format.advance next behind).Dated := by
  have made : (Jitlog.format.advance next behind).patches.toList =
      forest.patches.toList ++ (record.patchAt? forest.time).toList :=
    (step_of_apply applied).patches_eq
  have now : ∀ patch ∈ (record.patchAt? forest.time).toList, patch.time = forest.time :=
    fun patch member => time_of_patchAt? (Option.mem_toList.mp member)
  refine ⟨?_, ?_⟩
  · rw [made, List.map_append, List.pairwise_append]
    refine ⟨dated.ordered, ?_, ?_⟩
    · cases record.patchAt? forest.time <;> simp
    · simp only [List.mem_map]
      rintro _ ⟨old, known, rfl⟩ _ ⟨new, last, rfl⟩
      rw [now new last]
      exact dated.past old known
  · intro patch member
    rw [time_of_apply applied]
    rw [made] at member
    rcases List.mem_append.mp member with old | new
    · exact Nat.lt_succ_of_lt (dated.past patch old)
    · exact Nat.lt_succ_of_le (Nat.le_of_eq (now patch new))

/-! ## Looking back -/

/-- The machine code of an operation at some time is that which was logged, with the
patches of the time. -/
theorem codeAt?_eq (forest : Forest) (id : UInt64) (ref : OpRef) (time : Nat) :
    forest.codeAt? id ref time =
      (forest.trace? id).bind fun trace => trace.bounds.bind fun bounds =>
        (trace.code? ref).bind fun code =>
          if bounds.1.toNat + code.offset.toNat < UInt64.size then
            some (CodePatch.applyAll code.bytes (bounds.1 + code.offset.toUInt64) bounds.1
              bounds.2 forest.patches.toList time)
          else none := by
  unfold codeAt? Trace.code?
  simp only [Option.bind_assoc]
  rfl

/-- The patches which count at the time of the last record of a forest are those which
count at this time in a forest which extends it. -/
theorem Extends.applyAll_eq
    (grows : earlier.Extends later)
    (dated : earlier.Dated)
    {time : Nat}
    (now : earlier.time = time + 1)
    (snippet : Bytes)
    (address start finish : UInt64) :
    CodePatch.applyAll snippet address start finish later.patches.toList time =
      CodePatch.applyAll snippet address start finish earlier.patches.toList earlier.time := by
  obtain ⟨newer, made, after⟩ := grows.patches
  have late : newer.filter (fun patch => patch.counts start finish time) = [] := by
    rw [List.filter_eq_nil_iff]
    intro patch member counts
    have since := after patch member
    simp only [CodePatch.counts, Bool.and_eq_true, decide_eq_true_eq] at counts
    omega
  have soon : earlier.patches.toList.filter (fun patch => patch.counts start finish time) =
      earlier.patches.toList.filter fun patch => patch.counts start finish earlier.time := by
    refine List.filter_congr fun patch member => ?_
    have before := dated.past patch member
    have atTime : patch.time ≤ time := by omega
    have atEnd : patch.time ≤ earlier.time := by omega
    simp only [CodePatch.counts, atTime, atEnd]
  unfold CodePatch.applyAll
  rw [made, List.filter_append, late, List.append_nil, soon]

/-- A forest tells the machine code of an operation at the time of the last record of
one which it extends as that one does. -/
theorem Extends.codeAt?_eq_some
    (grows : earlier.Extends later)
    (dated : earlier.Dated)
    {time : Nat}
    (now : earlier.time = time + 1)
    {id : UInt64}
    {ref : OpRef}
    {bytes : Bytes}
    (told : earlier.codeAt? id ref earlier.time = some bytes) :
    later.codeAt? id ref time = some bytes := by
  rw [codeAt?_eq] at told ⊢
  obtain ⟨trace, found, told⟩ := Option.bind_eq_some_iff.mp told
  obtain ⟨bounds, bounded, told⟩ := Option.bind_eq_some_iff.mp told
  obtain ⟨code, attached, told⟩ := Option.bind_eq_some_iff.mp told
  obtain ⟨grown, there, keeps⟩ := grows.code id trace found
  rw [there, Option.bind_some, keeps.bounds bounds bounded, Option.bind_some,
    keeps.code ref code attached, Option.bind_some, grows.applyAll_eq dated now]
  exact told

end Forest

/-! ## Histories -/

namespace Jitlog

open RuntimeLog.Forest (Alike Dated Extends)

variable {header : Header} {history newer older : History} {forest later : Forest}

/-- The forest which the records of a history make behind a header, if all of them can
be applied. -/
def History.forest? (header : Header) : History → Option Forest
  | [] => some (Forest.start header)
  | record :: past =>
      (History.forest? header past).bind fun forest =>
        match (apply 0 record).run forest with
        | .ok () next => some (format.advance next 0)
        | .error _ _ => none

/-- A record which can be applied to the forest of those before it makes the next one. -/
theorem forest?_cons_of_apply
    {record : Record}
    {next : Forest}
    (made : history.forest? header = some forest)
    (applied : (apply 0 record).run forest = .ok () next) :
    History.forest? header (record :: history) = some (format.advance next 0) := by
  rw [History.forest?, made, Option.bind_some, applied]

/-- One more record is applied to the forest of those before it. -/
theorem forest?_cons_eq_some
    {record : Record}
    (made : History.forest? header (record :: history) = some later) :
    ∃ forest next,
      history.forest? header = some forest ∧
      (apply 0 record).run forest = .ok () next ∧
      later = format.advance next 0 := by
  obtain ⟨forest, before, applied⟩ := Option.bind_eq_some_iff.mp made
  split at applied
  · rename_i next ran
    cases applied
    exact ⟨forest, next, before, ran, rfl⟩
  · cases applied

/-- The forest of a history extends those of its beginnings. -/
theorem extends_of_forest? (made : History.forest? header (newer ++ older) = some later) :
    ∃ earlier, older.forest? header = some earlier ∧ earlier.Extends later := by
  induction newer generalizing later with
  | nil => exact ⟨later, made, .refl later⟩
  | cons record newer inductionHypothesis =>
      obtain ⟨forest, next, before, applied, rfl⟩ := forest?_cons_eq_some made
      obtain ⟨earlier, known, grows⟩ := inductionHypothesis before
      exact ⟨earlier, known, grows.trans (Forest.extends_of_apply applied 0)⟩

/-- The forest of a history has dated patches, and its time is the number of the
records. -/
theorem dated_of_forest? (made : history.forest? header = some forest) :
    forest.Dated ∧ forest.time = history.length := by
  induction history generalizing forest with
  | nil =>
      cases made
      exact ⟨⟨.nil, nofun⟩, rfl⟩
  | cons record past inductionHypothesis =>
      obtain ⟨earlier, next, before, applied, rfl⟩ := forest?_cons_eq_some made
      obtain ⟨dated, now⟩ := inductionHypothesis before
      refine ⟨dated.apply applied 0, ?_⟩
      rw [Forest.time_of_apply applied, now, List.length_cons]

/-- In every state of a reader the forest is like the one which the history makes,
behind whatever header. -/
theorem alike_of_reached
    [Stream.Decompressor]
    {source : Stream.Source}
    {chunk : Nat}
    {reader : LogReader format}
    (reached : LogReader.Reached source chunk history reader)
    (header : Header) :
    ∃ forest, history.forest? header = some forest ∧ forest.Alike reader.model := by
  apply reached.preserves ledger fun past model =>
    ∃ forest, History.forest? header past = some forest ∧ forest.Alike model
  case atStart => exact fun other => ⟨_, rfl, Forest.alike_start header other⟩
  case step =>
    rintro past record offset model next behind ⟨forest, made, alike⟩ applied
    obtain ⟨after, ran, still⟩ := alike.symm.apply applied 0
    exact ⟨format.advance after 0, forest?_cons_of_apply made ran, still.symm.advance 0 behind⟩
  case stopped =>
    rintro past model fault ⟨forest, made, alike⟩
    refine ⟨forest, made, ?_⟩
    rw [Forest.alike_iff.mp alike]
    exact ⟨rfl, rfl, rfl, rfl, rfl, rfl, rfl, rfl, rfl, rfl, rfl, rfl⟩

/-- A state of a reader extends the states of all readers which decoded only the first
ones of its records. -/
theorem extends_of_reached
    [Stream.Decompressor]
    {source other : Stream.Source}
    {chunk size : Nat}
    {reader before : LogReader format}
    (reached : LogReader.Reached source chunk (newer ++ older) reader)
    (stopped : LogReader.Reached other size older before) :
    before.model.Extends reader.model := by
  obtain ⟨later, made, alikeLater⟩ := alike_of_reached reached reader.header
  obtain ⟨earlier, known, grows⟩ := extends_of_forest? made
  obtain ⟨same, knownSame, alikeEarlier⟩ := alike_of_reached stopped reader.header
  cases known.symm.trans knownSame
  exact grows.of_alike alikeEarlier alikeLater

/-- In every state of a reader the patches are dated, and the time is the number of the
decoded records. -/
theorem dated_of_reached
    [Stream.Decompressor]
    {source : Stream.Source}
    {chunk : Nat}
    {reader : LogReader format}
    (reached : LogReader.Reached source chunk history reader) :
    reader.model.Dated ∧ reader.model.time = history.length := by
  obtain ⟨forest, made, alike⟩ := alike_of_reached reached reader.header
  obtain ⟨dated, now⟩ := dated_of_forest? made
  rw [Forest.alike_iff.mp alike]
  exact ⟨⟨dated.ordered, dated.past⟩, now⟩

/-- In the forest of a whole log, the machine code of an operation at the time of a
record is what a reader tells which decoded the records up to this one, whether it
was not asked for more or its log ends there. -/
theorem codeAt?_of_readToEnd
    [Stream.Decompressor]
    {source : Stream.Source}
    {chunk : Nat}
    {reader : LogReader format}
    {forest : Forest}
    (opened : LogReader.open? format source chunk = .ok reader)
    (ended : reader.readToEnd = .ok forest) :
    ∃ records : List Record,
      records.length = reader.drain.decoded.length ∧
      forest.time = records.length ∧
      forest.Dated ∧
      ∀ time < records.length,
        LogReader.Reached source chunk (records.take (time + 1)).reverse
          (reader.requests (time + 1)).2 ∧
        ∀ (other : Stream.Source) (size : Nat) (earlier : LogReader format),
          LogReader.Reached other size (records.take (time + 1)).reverse earlier →
            earlier.model.time = time + 1 ∧
            ∀ trace ref bytes,
              earlier.model.codeAt? trace ref earlier.model.time = some bytes →
                forest.codeAt? trace ref time = some bytes := by
  obtain ⟨records, last, size, reached, rfl, between⟩ :=
    LogReader.exists_reached_of_readToEnd opened ended
  obtain ⟨dated, now⟩ := dated_of_reached reached
  refine ⟨records, size, now.trans List.length_reverse, dated, fun time within => ?_⟩
  refine ⟨between (time + 1) within, fun other size earlier stopped => ?_⟩
  obtain ⟨datedEarlier, nowEarlier⟩ := dated_of_reached stopped
  have count : earlier.model.time = time + 1 := by
    rw [nowEarlier, List.length_reverse, List.length_take, Nat.min_eq_left within]
  refine ⟨count, fun trace ref bytes told => ?_⟩
  rw [← List.take_append_drop (time + 1) records, List.reverse_append] at reached
  exact (extends_of_reached reached stopped).codeAt?_eq_some datedEarlier count told

/-- The header of a log with patches. -/
def patchedHeader : Header :=
  { formatFlag, version := 3, words := .eight, machine := "" }

/-- Records by which the machine code of an operation is logged and patched. -/
def patchedRecords : List Record :=
  [.opcodes [(1, "guard_true")],
    .startTrace 1 "loop" 0 (some ""),
    .bounds 64 96,
    .enterStage .asm 1,
    .operation 1 "" (some "") none,
    .code { offset := 4, bytes := [1, 2, 3, 4] },
    .patch 69 [9, 9]]

attribute [local instance] Stream.Zstd.decompressor

set_option maxRecDepth 8000 in
/-- Machine code which is patched twice is told as it was after the first patch. -/
theorem codeAt?_of_patchedRecords :
    ∃ (reader : LogReader format) (forest : Forest),
      LogReader.open? format
          (.ofBytes (write patchedHeader (patchedRecords ++ [.patch 70 [7]])).toBytes) 16 =
        .ok reader ∧
      reader.readToEnd = .ok forest ∧
      (reader.requests 7).2.model.codeAt? 1 { stage := .asm, index := 0 } 7 =
        some [1, 9, 9, 4] ∧
      forest.codeAt? 1 { stage := .asm, index := 0 } 6 = some [1, 9, 9, 4] ∧
      forest.codeAt? 1 { stage := .asm, index := 0 } 7 = some [1, 9, 7, 4] := by
  have begins : patchedHeader.Begins formatFlag := ⟨rfl, ⟨by decide, by decide⟩, by decide⟩
  have writable : ∀ record ∈ patchedRecords ++ [.patch 70 [7]],
      record.Writable patchedHeader.words patchedHeader.version := by decide
  have follows : FollowsLayouts (Forest.start patchedHeader)
      (patchedRecords ++ [.patch 70 [7]]) :=
    followsLayouts_of_others (by decide) _
  obtain ⟨reader, opened, _, ended⟩ := exists_replays begins writable follows [] 16
  -- the same log is one of all records but the last, which is behind them
  obtain ⟨same, openedSame, replays, _⟩ := exists_replays begins
    (fun record member => writable record (List.mem_append_left _ member))
    (followsLayouts_of_others (by decide) (Forest.start patchedHeader))
    ((script .eight).encode (.patch 70 [7])) 16
  have log : (write patchedHeader patchedRecords).toBytes ++
      (script .eight).encode (.patch 70 [7]) =
        (write patchedHeader (patchedRecords ++ [.patch 70 [7]])).toBytes := by
    rw [toBytes_write, toBytes_write, List.append_assoc, Script.encodeAll_append]
    rfl
  rw [List.append_nil] at opened
  rw [log, opened] at openedSame
  cases openedSame
  have whole := ended (Or.inl rfl)
  have middle : (reader.requests 7).2.model.codeAt? 1 { stage := .asm, index := 0 } 7 =
      some [1, 9, 9, 4] := by
    have made : (reader.requests 7).2.model = (replay patchedHeader patchedRecords).model :=
      replays.model_eq
    rw [made]
    rfl
  obtain ⟨records, size, now, _, looks⟩ := codeAt?_of_readToEnd opened whole
  have count : records.length = 8 := now.symm.trans rfl
  obtain ⟨reached, back⟩ := looks 6 (by rw [count]; decide)
  obtain ⟨passed, told⟩ := back _ _ _ reached
  refine ⟨reader, _, opened, whole, middle, ?_, rfl⟩
  exact told 1 { stage := .asm, index := 0 } _ (by rw [passed]; exact middle)

end Jitlog
end RuntimeLog
