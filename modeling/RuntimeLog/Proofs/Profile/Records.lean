import RuntimeLog.Proofs.LogReader.Dialects
import RuntimeLog.Proofs.LogReader.Faults
import RuntimeLog.Proofs.LogReader.Requests

/-!
# Written records of profiles

The bytes of a record which a version has, and whose values fit into their fields,
are read back as this record.  No other bytes are read as any record.
-/

namespace RuntimeLog

open RuntimeLog.Reading (Reads Accepts)

namespace Profile

/-- How the records of profiles are written. -/
def script (words : WordSize) : Script Record where
  marker record := record.marker.byte
  payload record := Field.encodeAll words record.fields

/-- An entry of a kind and an address is written with them. -/
theorem StackEntry.ofKind?_eq_some
    {kind address : UInt64}
    {entry : StackEntry}
    (found : ofKind? kind address = some entry) :
    entry.kind = kind ∧ entry.address = address := by
  unfold ofKind? at found
  split at found
  · rename_i code
    cases found
    exact ⟨(beq_iff_eq.mp code).symm, rfl⟩
  · split at found
    · rename_i jitted
      cases found
      exact ⟨(beq_iff_eq.mp jitted).symm, rfl⟩
    · split at found
      · rename_i note
        cases found
        exact ⟨(beq_iff_eq.mp note).symm, rfl⟩
      · cases found

namespace Record

/-- A record with the parts which it has in a version, a stack which is not too deep
and a zone of the right width. -/
def Shaped (version : UInt16) : Record → Prop
  | stackTrace _ entries _ memory =>
      entries.length ≤ deepestStack.toNat ∧ (memory.isSome ↔ memoryVersion ≤ version)
  | startTime _ _ zone => zone.length = zoneWidth
  | _ => True

instance (version : UInt16) (record : Record) : Decidable (record.Shaped version) := by
  cases record <;> unfold Shaped <;> infer_instance

/-- A record which can be written: the version has it, and its values fit into
their fields. -/
structure Writable (record : Record) (words : WordSize) (version : UInt16) : Prop where
  marker_isIn : record.marker.IsIn version
  shaped : record.Shaped version
  fits : ∀ field ∈ record.fields, field.Fits words

instance (record : Record) (words : WordSize) (version : UInt16) :
    Decidable (record.Writable words version) :=
  decidable_of_iff
    (record.marker.IsIn version ∧ record.Shaped version ∧
      ∀ field ∈ record.fields, field.Fits words)
    ⟨fun all => ⟨all.1, all.2.1, all.2.2⟩,
      fun writable => ⟨writable.marker_isIn, writable.shaped, writable.fits⟩⟩

variable {words : WordSize} {version : UInt16} {start : Nat} {bytes : Bytes} {record : Record}

/-! ## Stacks -/

/-- An entry of a stack is read from its fields. -/
theorem reads_entryReading {entry : StackEntry} :
    (entryReading words).Reads start bytes entry ↔
      (∀ field ∈ entryFields entry, field.Fits words) ∧
        bytes = Field.encodeAll words (entryFields entry) := by
  simp only [entryFields, List.forall_mem_cons, List.not_mem_nil, false_implies, implies_true,
    and_true, Field.encodeAll_cons, Field.encodeAll_nil, List.append_nil]
  unfold entryReading
  constructor
  · intro reads
    obtain ⟨kind, first, rest, rfl, readsKind, reads⟩ := Reading.reads_bind.mp reads
    obtain ⟨address, second, last, rfl, readsAddress, reads⟩ := Reading.reads_bind.mp reads
    obtain ⟨rfl, fitsKind⟩ := Reading.reads_address.mp readsKind
    obtain ⟨rfl, fitsAddress⟩ := Reading.reads_address.mp readsAddress
    split at reads
    · rename_i found
      obtain ⟨rfl, rfl⟩ := Reading.reads_done.mp reads
      obtain ⟨rfl, rfl⟩ := StackEntry.ofKind?_eq_some found
      exact ⟨⟨fitsKind, fitsAddress⟩, by rw [List.append_nil]; rfl⟩
    · exact absurd reads Reading.not_reads_failed
  · rintro ⟨⟨fitsKind, fitsAddress⟩, rfl⟩
    rw [← List.append_nil ((Field.address entry.address).encode words)]
    apply (Reading.accepts_address fitsKind).bind
    apply (Reading.accepts_address fitsAddress).bind
    rw [StackEntry.ofKind?_kind_address]
    exact Reading.accepts_done entry

/-- The resident memory is read in the versions which have it. -/
theorem reads_memory
    {count thread : UInt64}
    {entries : List StackEntry} :
    (if memoryVersion ≤ version then
        Reading.address words >>= fun memory =>
          Reading.done (stackTrace count entries thread (some memory))
      else Reading.done (stackTrace count entries thread none) :
      Reading DecodeError Record).Reads start bytes record ↔
      ∃ memory : Option UInt64, (memory.isSome ↔ memoryVersion ≤ version) ∧
        (∀ field ∈ (memory.map Field.address).toList, field.Fits words) ∧
        record = stackTrace count entries thread memory ∧
        bytes = Field.encodeAll words (memory.map Field.address).toList := by
  by_cases later : memoryVersion ≤ version
  · rw [if_pos later]
    constructor
    · intro reads
      obtain ⟨memory, first, rest, rfl, readsMemory, reads⟩ := Reading.reads_bind.mp reads
      obtain ⟨rfl, fits⟩ := Reading.reads_address.mp readsMemory
      obtain ⟨rfl, rfl⟩ := Reading.reads_done.mp reads
      exact ⟨some memory, iff_of_true rfl later,
        fun field member => List.mem_singleton.mp member ▸ fits, rfl, rfl⟩
    · rintro ⟨memory, known, fits, rfl, rfl⟩
      obtain ⟨memory, rfl⟩ := Option.isSome_iff_exists.mp (known.mpr later)
      refine Accepts.bind (Reading.accepts_address (fits _ (List.mem_singleton.mpr rfl))) ?_ start
      exact Reading.accepts_done _
  · rw [if_neg later]
    constructor
    · intro reads
      obtain ⟨rfl, rfl⟩ := Reading.reads_done.mp reads
      exact ⟨none, iff_of_false nofun later, nofun, rfl, rfl⟩
    · rintro ⟨memory, known, fits, rfl, rfl⟩
      cases memory with
      | none => exact Reading.reads_done.mpr ⟨rfl, rfl⟩
      | some memory => exact absurd (known.mp rfl) later

/-- The fields of a stack. -/
theorem encodeAll_stackTrace
    (count thread : UInt64)
    (entries : List StackEntry)
    (memory : Option UInt64) :
    Field.encodeAll words (stackTrace count entries thread memory).fields =
      (Field.address count).encode words ++
        ((Field.address (UInt64.ofNat entries.length)).encode words ++
          (entries.flatMap (fun entry => Field.encodeAll words (entryFields entry)) ++
            ((Field.address thread).encode words ++
              Field.encodeAll words (memory.map Field.address).toList))) := by
  simp only [fields, Field.encodeAll_append, Field.encodeAll_flatMap, Field.encodeAll_cons,
    Field.encodeAll_nil, List.append_nil, List.append_assoc]

/-- A stack is read from its fields, if it is not too deep. -/
theorem reads_stackTraceReading :
    (stackTraceReading words version).Reads start bytes record ↔
      record.marker = .stackTrace ∧ record.Shaped version ∧
        (∀ field ∈ record.fields, field.Fits words) ∧
        bytes = Field.encodeAll words record.fields := by
  unfold stackTraceReading
  constructor
  · intro reads
    obtain ⟨count, _, _, rfl, readsCount, reads⟩ := Reading.reads_bind.mp reads
    obtain ⟨depth, _, _, rfl, readsDepth, reads⟩ := Reading.reads_bind.mp reads
    obtain ⟨rfl, fitsCount⟩ := Reading.reads_address.mp readsCount
    obtain ⟨rfl, fitsDepth⟩ := Reading.reads_address.mp readsDepth
    split at reads
    · exact absurd reads Reading.not_reads_failed
    · rename_i shallow
      obtain ⟨entries, _, _, rfl, readsEntries, reads⟩ := Reading.reads_bind.mp reads
      obtain ⟨thread, _, _, rfl, readsThread, reads⟩ := Reading.reads_bind.mp reads
      obtain ⟨length, fitsEntries, rfl⟩ :=
        (Reading.reads_repeated fun _ _ _ => reads_entryReading).mp readsEntries
      obtain ⟨rfl, fitsThread⟩ := Reading.reads_address.mp readsThread
      obtain ⟨memory, known, fitsMemory, rfl, rfl⟩ := reads_memory.mp reads
      have same : UInt64.ofNat entries.length = depth := by rw [length, UInt64.ofNat_toNat]
      refine ⟨rfl, ⟨?_, known⟩, ?_, ?_⟩
      · rw [length]
        exact UInt64.le_iff_toNat_le.mp (UInt64.not_lt.mp shallow)
      · simp only [fields, same, List.forall_mem_append, List.forall_mem_cons,
          List.forall_mem_flatMap, List.not_mem_nil, false_implies, implies_true, and_true]
        exact ⟨⟨⟨⟨fitsCount, fitsDepth⟩, fitsEntries⟩, fitsThread⟩, fitsMemory⟩
      · rw [encodeAll_stackTrace, same]
        rfl
  · rintro ⟨sort, shaped, fits, rfl⟩
    cases record with
    | stackTrace count entries thread memory =>
        obtain ⟨shallow, known⟩ := shaped
        simp only [fields, List.forall_mem_append, List.forall_mem_cons,
          List.forall_mem_flatMap, List.not_mem_nil, false_implies, implies_true,
          and_true] at fits
        obtain ⟨⟨⟨⟨fitsCount, fitsDepth⟩, fitsEntries⟩, fitsThread⟩, fitsMemory⟩ := fits
        have length : (UInt64.ofNat entries.length).toNat = entries.length :=
          UInt64.toNat_ofNat_of_lt' (Nat.lt_of_le_of_lt shallow (by decide))
        have accepted : ¬ deepestStack < UInt64.ofNat entries.length := by
          rw [UInt64.not_lt, UInt64.le_iff_toNat_le, length]
          exact shallow
        rw [encodeAll_stackTrace]
        apply (Reading.accepts_address fitsCount).bind
        apply (Reading.accepts_address fitsDepth).bind
        rw [if_neg accepted, length]
        refine Accepts.bind (Reading.accepts_repeated fun entry member start => ?_) ?_
        · exact reads_entryReading.mpr ⟨fitsEntries entry member, rfl⟩
        apply (Reading.accepts_address fitsThread).bind
        intro start
        exact reads_memory.mpr ⟨memory, known, fitsMemory, rfl, rfl⟩
    | _ => cases sort

/-! ## All records -/

/-- A name is read behind its address. -/
theorem reads_named {make : UInt64 → String → Record} :
    (do
        let address ← Reading.address words
        let name ← Reading.text .invalidUtf8
        return make address name : Reading DecodeError Record).Reads start bytes record ↔
      ∃ address name, record = make address name ∧
        (∀ field ∈ [Field.address address, .text name], field.Fits words) ∧
        bytes = Field.encodeAll words [.address address, .text name] := by
  constructor
  · intro reads
    obtain ⟨address, _, _, rfl, readsAddress, reads⟩ := Reading.reads_bind.mp reads
    obtain ⟨name, _, _, rfl, readsName, reads⟩ := Reading.reads_bind.mp reads
    obtain ⟨rfl, fitsAddress⟩ := Reading.reads_address.mp readsAddress
    obtain ⟨rfl, fitsName⟩ := Reading.reads_text.mp readsName
    obtain ⟨rfl, rfl⟩ := Reading.reads_done.mp reads
    refine ⟨address, name, rfl, ?_, rfl⟩
    simp only [List.forall_mem_cons, List.not_mem_nil, false_implies, implies_true, and_true]
    exact ⟨fitsAddress, fitsName⟩
  · rintro ⟨address, name, rfl, fits, rfl⟩
    have fitsAddress := fits (.address address) (by simp)
    have fitsName := fits (.text name) (by simp)
    refine Accepts.bind (Reading.accepts_address fitsAddress) ?_ start
    exact (Reading.accepts_text fitsName).bind (Reading.accepts_done (make address name))

/-- What is behind a marker is read as a record exactly if it is written so. -/
theorem reads_reading {marker : Marker} :
    (reading words version marker).Reads start bytes record ↔
      record.marker = marker ∧ record.Shaped version ∧
        (∀ field ∈ record.fields, field.Fits words) ∧
        bytes = Field.encodeAll words record.fields := by
  cases marker with
  | stackTrace => exact reads_stackTraceReading
  | virtualName =>
      refine reads_named.trans ⟨?_, ?_⟩
      · rintro ⟨address, name, rfl, fits, rfl⟩
        exact ⟨rfl, trivial, fits, rfl⟩
      · rintro ⟨sort, _, fits, rfl⟩
        cases record with
        | virtualName address name => exact ⟨address, name, rfl, fits, rfl⟩
        | _ => cases sort
  | nativeName =>
      refine reads_named.trans ⟨?_, ?_⟩
      · rintro ⟨address, name, rfl, fits, rfl⟩
        exact ⟨rfl, trivial, fits, rfl⟩
      · rintro ⟨sort, _, fits, rfl⟩
        cases record with
        | nativeName address name => exact ⟨address, name, rfl, fits, rfl⟩
        | _ => cases sort
  | trailer =>
      refine Reading.reads_done.trans ⟨?_, ?_⟩
      · rintro ⟨rfl, rfl⟩
        exact ⟨rfl, trivial, nofun, rfl⟩
      · rintro ⟨sort, _, _, rfl⟩
        cases record with
        | trailer => exact ⟨rfl, rfl⟩
        | _ => cases sort
  | metadata =>
      constructor
      · intro reads
        obtain ⟨key, _, _, rfl, readsKey, reads⟩ := Reading.reads_bind.mp reads
        obtain ⟨value, _, _, rfl, readsValue, reads⟩ := Reading.reads_bind.mp reads
        obtain ⟨rfl, fitsKey⟩ := Reading.reads_text.mp readsKey
        obtain ⟨rfl, fitsValue⟩ := Reading.reads_text.mp readsValue
        obtain ⟨rfl, rfl⟩ := Reading.reads_done.mp reads
        refine ⟨rfl, trivial, ?_, rfl⟩
        simp only [fields, List.forall_mem_cons, List.not_mem_nil, false_implies, implies_true,
          and_true]
        exact ⟨fitsKey, fitsValue⟩
      · rintro ⟨sort, _, fits, rfl⟩
        cases record with
        | metadata key value =>
            have fitsKey := fits (.text key) (by simp [fields])
            have fitsValue := fits (.text value) (by simp [fields])
            refine Accepts.bind (Reading.accepts_text fitsKey) ?_ start
            exact (Reading.accepts_text fitsValue).bind
              (Reading.accepts_done (metadata key value))
        | _ => cases sort
  | startTime =>
      constructor
      · intro reads
        obtain ⟨seconds, _, _, rfl, readsSeconds, reads⟩ := Reading.reads_bind.mp reads
        obtain ⟨micros, _, _, rfl, readsMicros, reads⟩ := Reading.reads_bind.mp reads
        obtain ⟨zone, _, _, rfl, readsZone, reads⟩ := Reading.reads_bind.mp reads
        obtain ⟨width, rfl⟩ := Reading.reads_bytes.mp readsZone
        obtain ⟨rfl, rfl⟩ := Reading.reads_done.mp reads
        rw [Reading.reads_u64.mp readsSeconds, Reading.reads_u64.mp readsMicros]
        refine ⟨rfl, width, ?_, rfl⟩
        simp [fields, Field.Fits]
      · rintro ⟨sort, width, _, rfl⟩
        cases record with
        | startTime seconds micros zone =>
            have zoned : (Reading.bytes zoneWidth : Reading DecodeError Bytes).Accepts
                ((Field.raw zone).encode words) zone :=
              fun start => Reading.reads_bytes.mpr ⟨width, rfl⟩
            refine Accepts.bind (Reading.accepts_u64 seconds) ?_ start
            exact (Reading.accepts_u64 micros).bind
              (zoned.bind (Reading.accepts_done (startTime seconds micros zone)))
        | _ => cases sort

end Record

/-! ## Verdicts -/

variable {header : Header} {markers : MarkerTable Marker} {profile : Profile} {offset : Nat}
variable {bytes : Bytes}

/-- The verdict on the bytes of a record which can be written is that on the record,
whatever follows. -/
theorem judge_encode
    (known : ∀ marker meaning, markers.lookup marker = .ok meaning ↔
      meaning.IsIn header.version ∧ meaning.byte = marker)
    {record : Record}
    (writable : record.Writable header.words header.version)
    (profile : Profile)
    (offset : Nat)
    (rest : Bytes) :
    format.judge { header, markers } profile offset ((script header.words).encode record ++ rest) =
      format.verdictOn (script header.words) profile offset record := by
  have found := (known record.marker.byte record.marker).mpr ⟨writable.marker_isIn, rfl⟩
  have reads : (Record.reading header.words header.version record.marker).Reads (offset + 1)
      (Field.encodeAll header.words record.fields) record :=
    Record.reads_reading.mpr ⟨rfl, writable.shaped, writable.fits, rfl⟩
  exact LogFormat.judge_of_complete found (reads.run_append rest)

/-- A good record is one which can be written, at the start of the bytes. -/
theorem exists_record_of_judge
    (known : ∀ marker meaning, markers.lookup marker = .ok meaning ↔
      meaning.IsIn header.version ∧ meaning.byte = marker)
    {marker : UInt8}
    {used : Nat}
    {next : Profile}
    (judged : format.judge { header, markers } profile offset bytes =
      .decoded marker used next) :
    ∃ record,
      record.Writable header.words header.version ∧
      bytes = (script header.words).encode record ++ bytes.drop used ∧
      next = format.advance (apply record profile) (offset + used) := by
  cases bytes with
  | nil => cases judged
  | cons first payload =>
      rw [LogFormat.judge] at judged
      split at judged
      · cases judged
      · rename_i meaning found
        obtain ⟨isIn, same⟩ := (known first meaning).mp found
        unfold LogFormat.judgePayload at judged
        split at judged
        · cases judged
        · cases judged
        · rename_i record count complete
          cases judged
          obtain ⟨rfl, shaped, fits, written⟩ :=
            Record.reads_reading.mp (Reading.reads_of_run complete)
          refine ⟨record, ⟨isIn, shaped, fits⟩, ?_, by rw [Nat.add_assoc]⟩
          have whole := List.take_append_drop count payload
          rw [written] at whole
          rw [Nat.add_comm, List.drop_succ_cons, ← same]
          exact congrArg (_ :: ·) whole.symm

end Profile
end RuntimeLog
