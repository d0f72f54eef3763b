import RuntimeLog.Proofs.LogReader.Faults
import RuntimeLog.Stream.Zstd.Decoder

/-!
# Logs which are cut off

A log without a fault may be cut off anywhere.  Inside the header there is nothing to
open.  Behind the header, the records which are whole are decoded as before; if the
cut is inside a record, that record is truncated, and nothing else is ever wrong.
-/

namespace RuntimeLog

/-- A header which is cut off has no fault, but is not complete. -/
theorem Header.parse_of_cut
    {bytes : Bytes}
    {flag : UInt8}
    {header : Header}
    {size count : Nat}
    (parsed : parse bytes flag = .ok (some (header, size)))
    (short : count < size) :
    parse (bytes.take count) flag = .ok none := by
  refine Classical.byContradiction fun settled => ?_
  have same := parse_append settled (bytes.drop count)
  rw [List.take_append_drop, parsed] at same
  have within := size_le_of_parse same.symm
  rw [List.length_take] at within
  omega

namespace LogFormat

variable {Marker Record Model : Type} {format : LogFormat Marker Record Model}
variable {dialect : Dialect Marker} {model next : Model} {offset used count : Nat}
variable {bytes : Bytes} {marker : UInt8}

/-- A record which is cut off is not complete, whatever was checked before. -/
theorem judge_of_cut
    (judged : format.judge dialect model offset bytes = .decoded marker used next)
    (short : count < used) :
    format.judge dialect model offset (bytes.take count) = .unfinished := by
  refine Classical.byContradiction fun settled => ?_
  have same := judge_append settled (bytes.drop count)
  rw [List.take_append_drop, judged] at same
  have within := (used_of_judge same.symm).2
  rw [List.length_take] at within
  omega

/-- A good record starts with its marker. -/
theorem exists_payload_of_judge
    (judged : format.judge dialect model offset bytes = .decoded marker used next) :
    ∃ payload, bytes = marker :: payload := by
  cases bytes with
  | nil => cases judged
  | cons first payload =>
      rw [judge] at judged
      split at judged
      · cases judged
      · unfold judgePayload at judged
        split at judged
        · cases judged
        · cases judged
        · split at judged
          · cases judged
          · cases judged
            exact ⟨payload, rfl⟩

/-- What is left of a log when it is cut off behind some bytes: the model behind the
records which are whole, and the fault. -/
inductive CutOff
    (format : LogFormat Marker Record Model)
    (dialect : Dialect Marker)
    (model : Model)
    (offset : Nat)
    (bytes : Bytes)
    (count : Nat) : Model → Option Fault → Prop
  /-- The cut is where a record ends, or in front of the first one. -/
  | between
      {answers : List Status}
      {last : Model}
      (records : Records format dialect model offset bytes answers count last) :
      CutOff format dialect model offset bytes count last none
  /-- The cut is somewhere behind the record which completes the log. -/
  | behind
      {answers : List Status}
      {total : Nat}
      {last : Model}
      (records : Records format dialect model offset bytes answers total last)
      (complete : format.isComplete last)
      (enough : total ≤ count) :
      CutOff format dialect model offset bytes count last none
  /-- The cut is inside a record. -/
  | inside
      {answers : List Status}
      {total used : Nat}
      {last next : Model}
      {marker : UInt8}
      (records : Records format dialect model offset bytes answers total last)
      (incomplete : ¬ format.isComplete last)
      (judged : format.judge dialect last (offset + total) (bytes.drop total) =
        .decoded marker used next)
      (started : total < count)
      (short : count < total + used) :
      CutOff format dialect model offset bytes count last
        (some { offset := offset + total, marker := some marker, error := .truncated })

/-- A cut behind the first record is one of the records behind it. -/
theorem CutOff.cons
    {last : Model}
    {fault : Option Fault}
    (incomplete : ¬ format.isComplete model)
    (judged : format.judge dialect model offset bytes = .decoded marker used next)
    (rest : CutOff format dialect next (offset + used) (bytes.drop used) count last fault) :
    CutOff format dialect model offset bytes (used + count) last fault := by
  cases rest with
  | between records => exact .between (.more incomplete judged records)
  | behind records complete enough =>
      exact .behind (.more incomplete judged records) complete (by omega)
  | inside records unfinished cut started short =>
      rw [List.drop_drop, Nat.add_assoc] at cut
      rw [Nat.add_assoc]
      exact .inside (.more incomplete judged records) unfinished cut (by omega) (by omega)

/-- A log which consists of good records, up to its end or until it is complete, can be
cut off anywhere. -/
theorem Records.exists_cutOff
    {answers : List Status}
    {total : Nat}
    {last : Model}
    (records : Records format dialect model offset bytes answers total last)
    (ends : format.isComplete last ∨ bytes.drop total = [])
    (within : count ≤ bytes.length) :
    ∃ left fault, CutOff format dialect model offset bytes count left fault := by
  induction records generalizing count with
  | @none model offset bytes =>
      rcases ends with complete | nothing
      · exact ⟨model, .none, .behind .none complete (Nat.zero_le count)⟩
      · rw [List.drop_zero] at nothing
        rw [nothing] at within
        obtain rfl := Nat.le_zero.mp within
        exact ⟨model, .none, .between .none⟩
  | @more model next last offset used further bytes marker answers incomplete judged rest
      inductionHypothesis =>
      rcases Nat.lt_or_ge count used with short | enough
      · rcases Nat.eq_zero_or_pos count with rfl | started
        · exact ⟨model, .none, .between .none⟩
        · have cut : format.judge dialect model (offset + 0) (bytes.drop 0) =
              .decoded marker used next := judged
          exact ⟨model, some _, .inside .none incomplete cut started (by rwa [Nat.zero_add])⟩
      · rw [← List.drop_drop] at ends
        have shorter : count - used ≤ (bytes.drop used).length := by
          rw [List.length_drop]
          omega
        obtain ⟨left, fault, cut⟩ := inductionHypothesis ends shorter
        refine ⟨left, fault, ?_⟩
        rw [← Nat.add_sub_of_le enough]
        exact cut.cons incomplete judged

/-- A log which is cut off decodes to what is left of it. -/
theorem CutOff.decodeFrom_eq
    {last : Model}
    {fault : Option Fault}
    (cut : CutOff format dialect model offset bytes count last fault) :
    (format.decodeFrom dialect model offset (bytes.take count)).2 =
      fault.elim last (format.stop last) := by
  cases cut with
  | between records => exact records.decodeFrom_take
  | behind records complete enough =>
      rw [(records.take enough).decodeFrom_eq, decodeFrom_of_complete complete]
      rfl
  | @inside answers total used last next marker records incomplete judged started short =>
      have cutAt : (bytes.take count).drop total = (bytes.drop total).take (count - total) :=
        List.drop_take
      rw [(records.take (Nat.le_of_lt started)).decodeFrom_eq, cutAt,
        decodeFrom_of_unfinished incomplete (judge_of_cut judged (by omega))]
      -- at least the marker is left of the record
      obtain ⟨payload, starts⟩ := exists_payload_of_judge judged
      obtain ⟨more, positive⟩ : ∃ more, count - total = more + 1 :=
        Nat.exists_eq_add_of_lt (Nat.sub_pos_of_lt started) |>.imp fun _ same => by omega
      rw [starts, positive, List.take_succ_cons]
      rfl

/-- What is left of a log without a fault has none but that of the cut. -/
theorem CutOff.fault?_eq
    (ledger : format.Ledger)
    (sound : ledger.fault? model = none)
    {last : Model}
    {fault : Option Fault}
    (cut : CutOff format dialect model offset bytes count last fault) :
    ledger.fault? last = none := by
  have kept {answers : List Status} {total : Nat} {last : Model}
      (records : Records format dialect model offset bytes answers total last) :
      ledger.fault? last = none :=
    records.preserves (ledger.fault? · = none) sound
      fun model next record offset behind applied before => by
        rw [ledger.fault_advance, ledger.fault_of_ok applied, before]
  cases cut with
  | between records => exact kept records
  | behind records => exact kept records
  | inside records => exact kept records

/-- A log without a fault consists of good records, up to its end or until it is
complete. -/
theorem Ledger.exists_records_of_sound
    (ledger : format.Ledger)
    (sound : ledger.fault? (format.decodeFrom dialect model offset bytes).2 = none) :
    ∃ answers total last,
      Records format dialect model offset bytes answers total last ∧
      (format.isComplete last ∨ bytes.drop total = []) := by
  obtain ⟨answers, total, last, records, ends⟩ :=
    exists_records format dialect model offset bytes
  refine ⟨answers, total, last, records, ?_⟩
  rw [records.decodeFrom_eq] at sound
  rcases ends with complete | ⟨incomplete, unfinished | ⟨marker, error, left, refused⟩⟩
  · exact Or.inl complete
  · rw [decodeFrom_of_unfinished incomplete unfinished] at sound
    cases rest : bytes.drop total with
    | nil => exact Or.inr rfl
    | cons marker payload =>
        rw [rest, finished, ledger.fault_stop] at sound
        cases sound
  · rw [decodeFrom_of_refused incomplete refused, ledger.fault_stop] at sound
    cases sound

end LogFormat

namespace LogReader

section

variable [Stream.Decompressor]
variable {Marker Record Model : Type} {format : LogFormat Marker Record Model}

/-- A stream which ends inside its header does not open, for lack of bytes. -/
theorem openBuffer_of_unfinished
    {buffer : Stream.Buffer}
    (uncompressed : buffer.Uncompressed)
    (parsed : Header.parse buffer.ahead format.flag = .ok none) :
    openBuffer format buffer = .error .notEnoughBytes := by
  have unsettled {buffer : Stream.Buffer} {found : Except OpenError (Option (Header × Nat))}
      (parsed : Header.parse buffer.ahead format.flag = .ok none)
      (here : Header.parse buffer.unread format.flag = found) : found = .ok none := by
    refine Classical.byContradiction fun settled => settled ?_
    rw [← parsed, Stream.Buffer.ahead, Header.parse_append (here ▸ settled), here]
  fun_induction openBuffer format buffer with
  | case1 buffer found length here => cases unsettled parsed here
  | case2 buffer found length here => cases unsettled parsed here
  | case3 buffer here reason later filled =>
      exact absurd filled (Stream.Buffer.fill_ne_error uncompressed)
  | case4 => rfl
  | case5 buffer here later filled inductionHypothesis =>
      obtain ⟨content, grows⟩ := Stream.Buffer.grows_of_fill_true uncompressed filled
      refine inductionHypothesis grows.uncompressed ?_
      rwa [grows.ahead_eq]
  | case6 buffer expected found here => cases unsettled parsed here
  | case7 buffer expected found here => cases unsettled parsed here
  | case8 buffer cause _ here => cases unsettled parsed here

/-- How the prefixes of a log decode.  Inside the header they do not open, for lack of
bytes.  Behind it there is always something left of the log, and this is what they decode
to: a model without a fault, which is marked with that of the cut. -/
def DecodesPrefixes
    (format : LogFormat Marker Record Model)
    (fault? : Model → Option Fault)
    (mark : Model → Option Fault → Model)
    (bytes : Bytes) : Prop :=
  ∃ header size markers,
    Header.parse bytes format.flag = .ok (some (header, size)) ∧
    format.markers? header.version = some markers ∧
    ∀ start, start <+: bytes → ∀ chunk,
      (start.length < size → open? format (.ofBytes start) chunk = .error .notEnoughBytes) ∧
      (size ≤ start.length → ∃ shorter,
        open? format (.ofBytes start) chunk = .ok shorter ∧
        (∃ last fault,
          format.CutOff { header, markers } (format.start header) size (bytes.drop size)
            (start.length - size) last fault) ∧
        ∀ last fault,
          format.CutOff { header, markers } (format.start header) size (bytes.drop size)
              (start.length - size) last fault →
            fault? last = none ∧ shorter.readToEnd = .ok (mark last fault))

/-- The prefixes of a log without a fault decode to what is left of it. -/
theorem decodesPrefixes_of_sound
    (ledger : format.Ledger)
    {mark : Model → Option Fault → Model}
    (marks : ∀ model fault, ledger.fault? model = none →
      mark model fault = fault.elim model (format.stop model))
    {bytes : Bytes}
    {chunk : Nat}
    {reader : LogReader format}
    {model : Model}
    (plain : ¬ Stream.Zstd.magic <+: bytes)
    (answered : open? format (.ofBytes bytes) chunk = .ok reader)
    (ended : reader.readToEnd = .ok model)
    (sound : ledger.fault? model = none) :
    DecodesPrefixes format ledger.fault? mark bytes := by
  obtain ⟨header, size, markers, parsed, supported, stands⟩ := exists_stands_of_open plain answered
  rw [stands.readToEnd_eq] at ended
  cases ended
  obtain ⟨answers, total, whole, records, ends⟩ := ledger.exists_records_of_sound sound
  refine ⟨header, size, markers, parsed, supported, fun start within shorterChunk => ?_⟩
  have plainStart : ¬ Stream.Zstd.magic <+: start := fun compressed =>
    plain (compressed.trans within)
  have taken : start = bytes.take start.length := List.prefix_iff_eq_take.mp within
  refine ⟨fun short => ?_, fun enough => ?_⟩
  · have content := Stream.Source.content_ofBytes start
    have ahead : (Stream.Buffer.start (.ofBytes start) shorterChunk).ahead = start := content
    rw [← content] at plainStart
    refine openBuffer_of_unfinished (Stream.Buffer.uncompressed_start
      (Stream.Source.flawless_ofBytes start) plainStart shorterChunk) ?_
    rw [ahead, taken]
    exact Header.parse_of_cut parsed short
  · have parsedStart := Header.parse_take parsed enough
    rw [← taken] at parsedStart
    obtain ⟨shorter, answeredStart, openedStart, promptStart⟩ :=
      opened_ofBytes plainStart parsedStart supported shorterChunk
    have behind : start.drop size = (bytes.drop size).take (start.length - size) := by
      conv => lhs; rw [taken]
      exact List.drop_take
    refine ⟨shorter, answeredStart, ?_, fun last fault cut => ?_⟩
    · refine records.exists_cutOff ends ?_
      have shorterThan := within.length_le
      rw [List.length_drop]
      omega
    · have soundLast := cut.fault?_eq ledger (ledger.fault_start header)
      refine ⟨soundLast, ?_⟩
      rw [(openedStart.stands promptStart).readToEnd_eq, behind, cut.decodeFrom_eq,
        marks last fault soundLast]

/-- A log of either format which has no fault may be cut off anywhere.  Inside its
header it does not open, for lack of bytes.  Otherwise it decodes to the model of the
records which are whole: without a fault where a record ends and everywhere behind the
end of the log, and truncated at the start of the record which is cut. -/
theorem readToEnd_of_cut
    {bytes : Bytes}
    (plain : ¬ Stream.Zstd.magic <+: bytes)
    (chunk : Nat) :
    (∀ reader forest,
      open? Jitlog.format (.ofBytes bytes) chunk = .ok reader →
      reader.readToEnd = .ok forest → forest.fault = none →
        DecodesPrefixes Jitlog.format Forest.fault (fun last fault => { last with fault }) bytes) ∧
    ∀ reader profile,
      open? Profile.format (.ofBytes bytes) chunk = .ok reader →
      reader.readToEnd = .ok profile → profile.fault = none →
        DecodesPrefixes Profile.format Profile.fault (fun last fault => { last with fault })
          bytes := by
  constructor
  · intro reader forest answered ended sound
    refine decodesPrefixes_of_sound Jitlog.ledger (fun last fault soundLast => ?_) plain answered
      ended sound
    cases fault with
    | some fault => rfl
    | none =>
        cases last
        cases soundLast
        rfl
  · intro reader profile answered ended sound
    refine decodesPrefixes_of_sound Profile.ledger (fun last fault soundLast => ?_) plain answered
      ended sound
    cases fault with
    | some fault => rfl
    | none =>
        cases last
        cases soundLast
        rfl

end

attribute [local instance] Stream.Zstd.decompressor

/-- A trace log in which two traces are aborted. -/
def abortedTraces : Bytes :=
  [0x23, 3, 0, 0, 0, 0, 0, 0] ++ [0x1f, 1, 0, 0, 0, 0, 0, 0, 0] ++ [0x1f, 2, 0, 0, 0, 0, 0, 0, 0]

/-- The header of the log in which two traces are aborted. -/
def abortedHeader : Header :=
  { formatFlag := 0x23, version := 3, words := .eight, machine := "" }

/-- The forest behind the first of two aborted traces. -/
def abortedForest : Forest :=
  Jitlog.format.advance ((Jitlog.format.start abortedHeader).abortTrace 1) 17

/-- The forest behind both of two aborted traces. -/
def bothAbortedForest : Forest :=
  Jitlog.format.advance (abortedForest.abortTrace 2) 26

set_option maxRecDepth 4000 in
/-- The records of the log in which two traces are aborted. -/
theorem judge_abortedTraces :
    ∃ markers, Jitlog.format.markers? abortedHeader.version = some markers ∧
      Jitlog.format.judge { header := abortedHeader, markers }
        (Jitlog.format.start abortedHeader) 8 (abortedTraces.drop 8) =
          .decoded 0x1f 9 abortedForest ∧
      Jitlog.format.judge { header := abortedHeader, markers } abortedForest 17
        ((abortedTraces.drop 8).drop 9) = .decoded 0x1f 9 bothAbortedForest := by
  obtain ⟨markers, supported, aborts⟩ :
      ∃ markers, Jitlog.format.markers? abortedHeader.version = some markers ∧
        markers.lookup 0x1f = .ok .abortTrace :=
    ⟨_, rfl, rfl⟩
  refine ⟨markers, supported, ?_, ?_⟩
  all_goals
    change LogFormat.judge _ _ _ _ (0x1f :: _) = _
    simp only [LogFormat.judge, aborts]
    rfl

/-- A profile with a trailer, and with something behind it. -/
def closedProfile : Bytes :=
  [0x50, 2, 0, 0, 0, 0, 0, 0] ++ [3] ++ [0xee, 0xee]

/-- The header of the profile with a trailer. -/
def closedHeader : Header :=
  { formatFlag := 0x50, version := 2, words := .eight, machine := "" }

/-- The profile behind its trailer. -/
def closedModel : Profile :=
  Profile.format.advance (Profile.apply .trailer (Profile.format.start closedHeader)) 9

/-- The record of the profile with a trailer. -/
theorem judge_closedProfile :
    ∃ markers, Profile.format.markers? closedHeader.version = some markers ∧
      Profile.format.judge { header := closedHeader, markers }
        (Profile.format.start closedHeader) 8 (closedProfile.drop 8) =
          .decoded 3 1 closedModel := by
  obtain ⟨markers, supported, closes⟩ :
      ∃ markers, Profile.format.markers? closedHeader.version = some markers ∧
        markers.lookup 3 = .ok .trailer :=
    ⟨_, rfl, rfl⟩
  refine ⟨markers, supported, ?_⟩
  change LogFormat.judge _ _ _ _ (3 :: _) = _
  simp only [LogFormat.judge, closes]
  rfl

set_option maxRecDepth 4000 in
/-- Cuts inside the header and inside the second record of a trace log, and one behind
the trailer of a profile. -/
theorem readToEnd_of_cut_logs :
    (open? Jitlog.format (.ofBytes (abortedTraces.take 5)) 16 = .error .notEnoughBytes ∧
      ∃ shorter,
        open? Jitlog.format (.ofBytes (abortedTraces.take 21)) 16 = .ok shorter ∧
        shorter.readToEnd = .ok
          { abortedForest with
            fault := some { offset := 17, marker := some 0x1f, error := .truncated } }) ∧
    ∃ shorter profile,
      open? Profile.format (.ofBytes (closedProfile.take 10)) 16 = .ok shorter ∧
      shorter.readToEnd = .ok profile ∧
      profile.complete ∧
      profile.fault = none := by
  constructor
  · have plain : ¬ Stream.Zstd.magic <+: abortedTraces := by decide
    have parsed : Header.parse abortedTraces Jitlog.format.flag =
        .ok (some (abortedHeader, 8)) := rfl
    obtain ⟨markers, supported, first, second⟩ := judge_abortedTraces
    obtain ⟨reader, answered, opened, prompt⟩ := opened_ofBytes plain parsed supported 16
    have ended := (opened.stands prompt).readToEnd_eq
    rw [LogFormat.decodeFrom_of_decoded (by decide) first,
      LogFormat.decodeFrom_of_decoded (by decide) second,
      LogFormat.decodeFrom_of_unfinished (by decide) rfl] at ended
    obtain ⟨_, _, _, parsedAgain, supportedAgain, cuts⟩ :=
      (readToEnd_of_cut plain 16).1 reader _ answered ended rfl
    cases parsed.symm.trans parsedAgain
    cases supported.symm.trans supportedAgain
    have unopened := (cuts (abortedTraces.take 5) (List.take_prefix _ _) 16).1 (by decide)
    obtain ⟨shorter, openedShorter, _, decodes⟩ :=
      (cuts (abortedTraces.take 21) (List.take_prefix _ _) 16).2 (by decide)
    obtain ⟨_, result⟩ := decodes _ _
      (.inside (.more (by decide) first .none) (by decide) second (by decide) (by decide))
    exact ⟨unopened, shorter, openedShorter, result⟩
  · have plain : ¬ Stream.Zstd.magic <+: closedProfile := by decide
    have parsed : Header.parse closedProfile Profile.format.flag =
        .ok (some (closedHeader, 8)) := rfl
    obtain ⟨markers, supported, closed⟩ := judge_closedProfile
    obtain ⟨reader, answered, opened, prompt⟩ := opened_ofBytes plain parsed supported 16
    have ended := (opened.stands prompt).readToEnd_eq
    rw [LogFormat.decodeFrom_of_decoded (by decide) closed,
      LogFormat.decodeFrom_of_complete (by decide)] at ended
    obtain ⟨_, _, _, parsedAgain, supportedAgain, cuts⟩ :=
      (readToEnd_of_cut plain 16).2 reader _ answered ended rfl
    cases parsed.symm.trans parsedAgain
    cases supported.symm.trans supportedAgain
    obtain ⟨shorter, openedShorter, _, decodes⟩ :=
      (cuts (closedProfile.take 10) (List.take_prefix _ _) 16).2 (by decide)
    obtain ⟨_, result⟩ := decodes _ _
      (.behind (.more (by decide) closed .none) (by decide) (by decide))
    exact ⟨shorter, _, openedShorter, result, rfl, rfl⟩

end LogReader
end RuntimeLog
