import RuntimeLog.Proofs.LogReader.Dialects

/-!
# Written records of trace logs

A record which a version has and whose values fit into their fields is read back
from its bytes, up to the last of them and no further.  A merge point has to be
written for the layout in force.
-/

namespace RuntimeLog

/-- The sort of a written value. -/
def WrittenValue.kind : WrittenValue → ValueKind
  | integer _ => .integer
  | _ => .text

namespace Jitlog
namespace Record

/-- A record with the parts which it has in a version, and with no more entries
than its count tells. -/
def Shaped (version : UInt16) : Record → Prop
  | opcodes names => names.length < UInt16.size
  | operation _ _ failArguments _ => failArguments.isSome ↔ detailVersion ≤ version
  | startTrace _ _ _ driver => driver.isSome ↔ detailVersion ≤ version
  | layout declarations => declarations.length < UInt8.size
  | sourceLines _ lines => lines.length < UInt16.size
  | _ => True

instance (version : UInt16) (record : Record) : Decidable (record.Shaped version) := by
  cases record <;> unfold Shaped <;> infer_instance

/-- A record which can be written: the version has it, and its values fit into
their fields. -/
structure Writable (record : Record) (words : WordSize) (version : UInt16) : Prop where
  marker_isIn : record.marker.IsIn version
  shaped : record.Shaped version
  fits : ∀ field ∈ record.fields, field.Fits words

instance (record : Record) (words : WordSize) (version : UInt16) :
    Decidable (record.Writable words version) :=
  decidable_of_iff
    (record.marker.IsIn version ∧ record.Shaped version ∧
      ∀ field ∈ record.fields, field.Fits words)
    ⟨fun all => ⟨all.1, all.2.1, all.2.2⟩,
      fun writable => ⟨writable.marker_isIn, writable.shaped, writable.fits⟩⟩

/-- A merge point has one value of the right sort for every field of the layout in
force, if there is one. -/
def Follows (forest : Forest) : Record → Prop
  | mergePoint values => ∀ layout, forest.currentLayout = .ok layout →
      values.map WrittenValue.kind = layout.map fun field => field.kind
  | _ => True

variable {words : WordSize} {version : UInt16} {forest : Forest}

/-! ## Entries -/

/-- The text which later versions have. -/
theorem accepts_detailReading
    {detail : Option String}
    (shaped : detail.isSome ↔ detailVersion ≤ version)
    (fits : ∀ field ∈ (detail.map Field.text).toList, field.Fits words) :
    (detailReading version).Accepts (Field.encodeAll words (detail.map Field.text).toList)
      detail := by
  unfold detailReading
  cases detail with
  | none =>
      rw [if_neg (fun later => Bool.false_ne_true (shaped.mpr later))]
      exact Reading.accepts_done none
  | some value =>
      rw [if_pos (shaped.mp rfl)]
      exact (Reading.accepts_text (fits _ (List.mem_singleton.mpr rfl))).bind
        (Reading.accepts_done _)

theorem accepts_opcodeReading
    {entry : UInt16 × String}
    (fits : (Field.text entry.2).Fits words) :
    opcodeReading.Accepts (Field.encodeAll words [.u16 entry.1, .text entry.2]) entry :=
  (Reading.accepts_u16 _).bind ((Reading.accepts_text fits).bind (Reading.accepts_done _))

theorem accepts_lineReading
    {entry : UInt16 × SourceLine}
    (fits : (Field.text entry.2.text).Fits words) :
    lineReading.Accepts (Field.encodeAll words (SourceCache.lineFields entry.1 entry.2)) entry :=
  (Reading.accepts_u16 _).bind
    ((Reading.accepts_u8 _).bind ((Reading.accepts_text fits).bind (Reading.accepts_done _)))

theorem accepts_declaration (declaration : FieldDeclaration) :
    FieldDeclaration.reading.Accepts (Field.encodeAll words declaration.fields) declaration := by
  refine (Reading.accepts_u8 _).bind ((Reading.accepts_u8 _).bind ?_)
  rw [ValueKind.ofCode?_code]
  exact Reading.accepts_done declaration

/-! ## Records but merge points -/

/-- An operation is read back, with a descriptor or without. -/
theorem accepts_operationReading
    {opcode : UInt16}
    {arguments : String}
    {failArguments : Option String}
    {descriptor : Option UInt64}
    (shaped : failArguments.isSome ↔ detailVersion ≤ version)
    (fits : ∀ field ∈ (operation opcode arguments failArguments descriptor).fields,
      field.Fits words) :
    (operationReading words version descriptor.isSome).Accepts
      (Field.encodeAll words (operation opcode arguments failArguments descriptor).fields)
      (operation opcode arguments failArguments descriptor) := by
  simp only [fields, List.cons_append, List.nil_append, List.forall_mem_cons,
    List.forall_mem_append] at fits
  obtain ⟨_, text, details, address⟩ := fits
  simp only [fields, List.cons_append, List.nil_append, Field.encodeAll_cons,
    Field.encodeAll_append]
  refine (Reading.accepts_u16 opcode).bind ((Reading.accepts_text text).bind ?_)
  refine (accepts_detailReading shaped details).bind ?_
  cases descriptor with
  | none => exact Reading.accepts_done _
  | some number =>
      exact (Reading.accepts_address (address _ (List.mem_singleton.mpr rfl))).bind
        (Reading.accepts_done _)

/-- The names of opcodes are read back. -/
theorem accepts_opcodes
    {names : List (UInt16 × String)}
    (few : names.length < UInt16.size)
    (fits : ∀ field ∈ (opcodes names).fields, field.Fits words) :
    (reading words version forest .opcodes).Accepts (Field.encodeAll words (opcodes names).fields)
      (opcodes names) := by
  have count : (UInt16.ofNat names.length).toNat = names.length := UInt16.toNat_ofNat_of_lt' few
  have items : ∀ entry ∈ names, opcodeReading.Accepts
      (Field.encodeAll words [.u16 entry.1, .text entry.2]) entry := by
    intro entry member
    apply accepts_opcodeReading
    apply fits
    exact List.mem_cons_of_mem _ (List.mem_flatMap.mpr ⟨entry, member, by simp⟩)
  have repeats := Reading.accepts_repeated items
  rw [← count] at repeats
  simp only [fields, Field.encodeAll_cons, Field.encodeAll_flatMap]
  refine (Reading.accepts_u16 _).bind ?_
  rw [← List.append_nil (List.flatMap _ _)]
  exact repeats.bind (Reading.accepts_done _)

/-- The declarations of a layout are read back. -/
theorem accepts_layout
    {declarations : List FieldDeclaration}
    (few : declarations.length < UInt8.size) :
    (reading words version forest .layout).Accepts
      (Field.encodeAll words (layout declarations).fields) (layout declarations) := by
  have count : (UInt8.ofNat declarations.length).toNat = declarations.length :=
    UInt8.toNat_ofNat_of_lt' few
  have items : ∀ declaration ∈ declarations, FieldDeclaration.reading.Accepts
      (Field.encodeAll words declaration.fields) declaration :=
    fun declaration _ => accepts_declaration declaration
  have repeats := Reading.accepts_repeated items
  rw [← count] at repeats
  simp only [fields, Field.encodeAll_cons, Field.encodeAll_flatMap]
  refine (Reading.accepts_u8 _).bind ?_
  rw [← List.append_nil (List.flatMap _ _)]
  exact repeats.bind (Reading.accepts_done _)

/-- The lines of a source file are read back. -/
theorem accepts_sourceLines
    {file : String}
    {lines : List (UInt16 × SourceLine)}
    (few : lines.length < UInt16.size)
    (fits : ∀ field ∈ (sourceLines file lines).fields, field.Fits words) :
    (reading words version forest .sourceLines).Accepts
      (Field.encodeAll words (sourceLines file lines).fields) (sourceLines file lines) := by
  have count : (UInt16.ofNat lines.length).toNat = lines.length := UInt16.toNat_ofNat_of_lt' few
  have items : ∀ entry ∈ lines, lineReading.Accepts
      (Field.encodeAll words (SourceCache.lineFields entry.1 entry.2)) entry := by
    intro entry member
    apply accepts_lineReading
    apply fits
    exact List.mem_append_right _
      (List.mem_flatMap.mpr ⟨entry, member, by simp [SourceCache.lineFields]⟩)
  have named : (Field.text file).Fits words := fits _ List.mem_cons_self
  have repeats := Reading.accepts_repeated items
  rw [← count] at repeats
  simp only [fields, SourceCache.recordFields, List.cons_append, List.nil_append,
    Field.encodeAll_cons, Field.encodeAll_flatMap]
  refine (Reading.accepts_text named).bind ((Reading.accepts_u16 _).bind ?_)
  rw [← List.append_nil (List.flatMap _ _)]
  exact repeats.bind (Reading.accepts_done _)

/-- What is behind the marker of a record which is no merge point is read back. -/
theorem accepts_reading
    {record : Record}
    (writable : record.Writable words version)
    (other : record.marker ≠ .mergePoint) :
    (reading words version forest record.marker).Accepts (Field.encodeAll words record.fields)
      record := by
  obtain ⟨_, shaped, fits⟩ := writable
  have addressed (number : UInt64) (among : Field.address number ∈ record.fields) :
      (Reading.address words : Reading DecodeError UInt64).Accepts
        ((Field.address number).encode words) number :=
    Reading.accepts_address (fits _ among)
  have entitled (value : String) (among : Field.text value ∈ record.fields) :
      textReading.Accepts ((Field.text value).encode words) value :=
    Reading.accepts_text (fits _ among)
  have dumped (value : Bytes) (among : Field.blob value ∈ record.fields) :
      (Reading.blob : Reading DecodeError Bytes).Accepts ((Field.blob value).encode words) value :=
    Reading.accepts_blob (fits _ among)
  cases record with
  | inputArguments list =>
      exact (entitled list (by simp [fields])).bind (Reading.accepts_done (inputArguments list))
  | opcodes names => exact accepts_opcodes shaped fits
  | operation opcode arguments failArguments descriptor =>
      have reads := accepts_operationReading shaped fits
      cases descriptor <;> exact reads
  | bounds start finish =>
      exact (addressed start (by simp [fields])).bind
        ((addressed finish (by simp [fields])).bind (Reading.accepts_done (bounds start finish)))
  | code snippet =>
      exact (Reading.accepts_u16 snippet.offset).bind
        ((dumped snippet.bytes (by simp [fields])).bind (Reading.accepts_done (code snippet)))
  | enterStage kind trace =>
      cases kind <;>
        exact (addressed trace (by simp [fields])).bind
          (Reading.accepts_done (enterStage _ trace))
  | stitchBridge descriptor address =>
      exact (addressed descriptor (by simp [fields])).bind
        ((addressed address (by simp [fields])).bind
          (Reading.accepts_done (stitchBridge descriptor address)))
  | startTrace id kind attachedDescriptor driver =>
      have details : ∀ field ∈ (driver.map Field.text).toList, field.Fits words :=
        fun field member => fits field (List.mem_append_right _ member)
      simp only [fields, List.cons_append, List.nil_append, Field.encodeAll_cons]
      rw [← List.append_nil (Field.encodeAll words (driver.map Field.text).toList)]
      exact (addressed id (by simp [fields])).bind
        ((entitled kind (by simp [fields])).bind
          ((addressed attachedDescriptor (by simp [fields])).bind
            ((accepts_detailReading shaped details).bind
              (Reading.accepts_done (startTrace id kind attachedDescriptor driver)))))
  | counter number kind count =>
      exact (addressed number (by simp [fields])).bind
        ((Reading.accepts_u8 kind).bind
          ((Reading.accepts_u64 count).bind (Reading.accepts_done (counter number kind count))))
  | layout declarations => exact accepts_layout shaped
  | mergePoint values => exact absurd rfl other
  | sharedStart field start =>
      exact (Reading.accepts_u8 field).bind
        ((entitled start (by simp [fields])).bind (Reading.accepts_done (sharedStart field start)))
  | abortTrace id =>
      exact (addressed id (by simp [fields])).bind (Reading.accepts_done (abortTrace id))
  | sourceLines file lines => exact accepts_sourceLines shaped fits
  | redirect before after target =>
      exact (addressed before (by simp [fields])).bind
        ((addressed after (by simp [fields])).bind
          ((addressed target (by simp [fields])).bind
            (Reading.accepts_done (redirect before after target))))
  | patch address bytes =>
      exact (addressed address (by simp [fields])).bind
        ((dumped bytes (by simp [fields])).bind (Reading.accepts_done (patch address bytes)))

/-! ## Merge points -/

/-- A reading which fails on some bytes, whatever follows them. -/
def Refuses {α : Type} (reading : Reading DecodeError α) (bytes : Bytes) (error : DecodeError) :
    Prop :=
  ∀ start rest, ∃ used, reading.run start (bytes ++ rest) = .malformed error used

/-- A reading fails if the second part of it does. -/
theorem Refuses.behind
    {α β : Type}
    {reading : Reading DecodeError α}
    {next : α → Reading DecodeError β}
    {first second : Bytes}
    {value : α}
    {error : DecodeError}
    (accepts : reading.Accepts first value)
    (refuses : Refuses (next value) second error) :
    Refuses (reading >>= next) (first ++ second) error := by
  intro start rest
  obtain ⟨used, failed⟩ := refuses (start + first.length) rest
  refine ⟨first.length + used, ?_⟩
  rw [List.append_assoc, (accepts start).run_bind, failed]
  rfl

/-- A reading fails if the first part of it does. -/
theorem Refuses.bind
    {α β : Type}
    {reading : Reading DecodeError α}
    {bytes : Bytes}
    {error : DecodeError}
    (refuses : Refuses reading bytes error)
    (next : α → Reading DecodeError β)
    (more : Bytes) :
    Refuses (reading >>= next) (bytes ++ more) error := by
  intro start rest
  obtain ⟨used, failed⟩ := refuses start (more ++ rest)
  refine ⟨used, ?_⟩
  rw [List.append_assoc, Reading.run_bind, failed]

/-- A value with a meaning is read back. -/
theorem accepts_valueReading
    {field : MergeField}
    {written : WrittenValue}
    {value : FieldValue}
    (suits : written.kind = field.kind)
    (fits : ∀ part ∈ written.fields, part.Fits words)
    (means : field.value? written = some value)
    (position : UInt8) :
    (field.valueReading position).Accepts (Field.encodeAll words written.fields) written := by
  have entitled (text : String) (among : Field.text text ∈ written.fields) :
      (Reading.text DecodeError.invalidUtf8).Accepts ((Field.text text).encode words) text :=
    Reading.accepts_text (fits _ among)
  unfold MergeField.valueReading
  rw [← suits]
  cases written with
  | integer number =>
      exact (Reading.accepts_u8 WrittenValue.integerTag).bind
        ((Reading.accepts_u64 number).bind (Reading.accepts_done (WrittenValue.integer number)))
  | whole text =>
      exact (Reading.accepts_u8 WrittenValue.wholeTag).bind
        ((entitled text (by simp [WrittenValue.fields])).bind
          (Reading.accepts_done (WrittenValue.whole text)))
  | shared rest =>
      obtain ⟨start, declared, _⟩ := Option.map_eq_some_iff.mp means
      refine (Reading.accepts_u8 WrittenValue.sharedTag).bind ?_
      rw [declared]
      exact (entitled rest (by simp [WrittenValue.fields])).bind
        (Reading.accepts_done (WrittenValue.shared rest))
  | sharedOnly =>
      obtain ⟨start, declared, _⟩ := Option.map_eq_some_iff.mp means
      refine (Reading.accepts_u8 WrittenValue.sharedOnlyTag).bind ?_
      rw [declared]
      exact Reading.accepts_done WrittenValue.sharedOnly

/-- A value which needs a shared start where none was declared is refused. -/
theorem refuses_valueReading
    {field : MergeField}
    {written : WrittenValue}
    (suits : written.kind = field.kind)
    (means : field.value? written = none)
    (position : UInt8) :
    Refuses (field.valueReading position) (Field.encodeAll words written.fields)
      (.missingCommonPrefix position) := by
  unfold MergeField.valueReading
  rw [← suits]
  have fails (more : Bytes) :
      Refuses (Reading.failed (.missingCommonPrefix position) : Reading DecodeError WrittenValue)
        more (.missingCommonPrefix position) :=
    fun start rest => ⟨0, rfl⟩
  cases written with
  | integer number => cases means
  | whole text => cases means
  | shared rest =>
      have undeclared := Option.map_eq_none_iff.mp means
      refine .behind (Reading.accepts_u8 WrittenValue.sharedTag) ?_
      rw [undeclared]
      exact fails _
  | sharedOnly =>
      have undeclared := Option.map_eq_none_iff.mp means
      refine .behind (Reading.accepts_u8 WrittenValue.sharedOnlyTag) ?_
      rw [undeclared]
      exact fails _

/-- The values of a merge point are read back if all of them have a meaning, and
are refused for the same reason if not. -/
theorem reads_valuesReading
    {layout : List MergeField}
    {values : List WrittenValue}
    (follows : values.map WrittenValue.kind = layout.map fun field => field.kind)
    (fits : ∀ part ∈ values.flatMap WrittenValue.fields, part.Fits words)
    (position : UInt8) :
    match Forest.resolveFrom position layout values with
    | .ok _ =>
        (valuesReading position layout).Accepts
          (Field.encodeAll words (values.flatMap WrittenValue.fields)) values
    | .error error =>
        Refuses (valuesReading position layout)
          (Field.encodeAll words (values.flatMap WrittenValue.fields)) error := by
  induction layout generalizing values position with
  | nil =>
      cases List.map_eq_nil_iff.mp follows
      exact Reading.accepts_done []
  | cons field fields inductionHypothesis =>
      obtain ⟨written, values, rfl, suits, rest⟩ := List.map_eq_cons_iff.mp follows
      rw [List.flatMap_cons, List.forall_mem_append] at fits
      rw [List.flatMap_cons, Field.encodeAll_append, Forest.resolveFrom, valuesReading]
      cases means : field.value? written with
      | none => exact (refuses_valueReading suits means position).bind _ _
      | some value =>
          have first := accepts_valueReading suits fits.1 means position
          have others := inductionHypothesis rest fits.2 (position + 1)
          cases resolved : Forest.resolveFrom (position + 1) fields values with
          | ok more =>
              rw [resolved] at others
              refine first.bind ?_
              rw [← List.append_nil (Field.encodeAll _ _)]
              exact others.bind (Reading.accepts_done (written :: values))
          | error error =>
              rw [resolved] at others
              refine .behind first ?_
              rw [← List.append_nil (Field.encodeAll _ _)]
              exact others.bind _ []

/-- A merge point is read back if all of its values have a meaning in the layout in
force, and is refused for the same reason if not. -/
theorem reads_mergePointReading
    {values : List WrittenValue}
    (follows : (mergePoint values).Follows forest)
    (fits : ∀ part ∈ (mergePoint values).fields, part.Fits words) :
    match forest.currentLayout.bind fun layout => Forest.resolveFrom 0 layout values with
    | .ok _ =>
        (mergePointReading forest.currentLayout).Accepts
          (Field.encodeAll words (mergePoint values).fields) (mergePoint values)
    | .error error =>
        Refuses (mergePointReading forest.currentLayout)
          (Field.encodeAll words (mergePoint values).fields) error := by
  cases declared : forest.currentLayout with
  | error error => exact fun start rest => ⟨0, rfl⟩
  | ok layout =>
      have reads := reads_valuesReading (follows layout declared) fits 0
      dsimp only [Except.bind]
      cases resolved : Forest.resolveFrom 0 layout values with
      | ok meanings =>
          rw [resolved] at reads
          exact reads.map mergePoint
      | error error =>
          rw [resolved] at reads
          rw [← List.append_nil (Field.encodeAll _ _)]
          exact reads.bind _ []

end Record
end Jitlog
end RuntimeLog
