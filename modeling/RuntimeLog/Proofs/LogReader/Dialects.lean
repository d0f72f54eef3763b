import Mathlib.Data.List.Nodup
import RuntimeLog.Jitlog.Format
import RuntimeLog.Profile.Format
import RuntimeLog.Proofs.LogReader.Drain
import RuntimeLog.Proofs.LogReader.Headers

/-!
# Dialects

A header of a supported version which is written at the front of a log opens it,
whatever follows.  In the table of its version the byte of every marker which the
version has stands for that marker, and no other byte stands for any.
-/

namespace RuntimeLog

namespace MarkerTable

variable {Meaning : Type} {table : MarkerTable Meaning} {marker : UInt8} {meaning : Meaning}

/-- What a marker stands for. -/
def meaning? (table : MarkerTable Meaning) (marker : UInt8) : Option Meaning :=
  (table.position? marker).bind fun position => (table.meanings[position]?).join

/-- A marker is looked up if it stands for something. -/
theorem lookup_eq_ok_iff :
    table.lookup marker = .ok meaning ↔ table.meaning? marker = some meaning := by
  unfold lookup
  rw [← meaning?]
  cases table.meaning? marker <;> simp

/-- A marker in the range of a table. -/
structure Holds (table : MarkerTable Meaning) (marker : UInt8) : Prop where
  first_le : table.first ≤ marker
  lt_length : marker.toNat - table.first.toNat < table.meanings.length

instance (table : MarkerTable Meaning) (marker : UInt8) : Decidable (table.Holds marker) :=
  decidable_of_iff
    (table.first ≤ marker ∧ marker.toNat - table.first.toNat < table.meanings.length)
    ⟨fun both => ⟨both.1, both.2⟩, fun holds => ⟨holds.first_le, holds.lt_length⟩⟩

/-- Nothing stands for anything in a table without meanings. -/
theorem meaning?_empty (version : UInt16) (first last marker : UInt8) :
    (empty version first last : MarkerTable Meaning).meaning? marker = none := by
  apply Option.bind_eq_none_iff.mpr
  intro position _
  cases found : (empty version first last : MarkerTable Meaning).meanings[position]? with
  | none => rfl
  | some entry =>
      cases List.eq_of_mem_replicate (List.mem_of_getElem? found)
      rfl

/-- The range of a table stays when a marker is given a meaning. -/
theorem holds_insert {other : UInt8} :
    (table.insert marker meaning).Holds other ↔ table.Holds other := by
  unfold insert
  split
  · constructor
    · intro holds
      exact ⟨holds.first_le, by simpa using holds.lt_length⟩
    · intro holds
      exact ⟨holds.first_le, by simpa using holds.lt_length⟩
  · rfl

/-- A marker in the range stands for what it was given last; all others stand for
what they did before. -/
theorem meaning?_insert (holds : table.Holds marker) (other : UInt8) :
    (table.insert marker meaning).meaning? other =
      if other = marker then some meaning else table.meaning? other := by
  have place : table.position? marker = some (marker.toNat - table.first.toNat) :=
    if_pos holds.first_le
  unfold insert
  rw [place]
  dsimp only
  unfold meaning? position?
  dsimp only
  by_cases same : other = marker
  · subst same
    rw [if_pos holds.first_le, if_pos rfl, Option.bind_some,
      List.getElem?_set_self holds.lt_length]
    rfl
  · rw [if_neg same]
    split
    · rename_i above
      have apart : marker.toNat - table.first.toNat ≠ other.toNat - table.first.toNat := by
        have lower := UInt8.le_iff_toNat_le.mp above
        have bottom := UInt8.le_iff_toNat_le.mp holds.first_le
        have different : other.toNat ≠ marker.toNat := fun equal => same (UInt8.toNat_inj.mp equal)
        omega
      rw [Option.bind_some, Option.bind_some, List.getElem?_set_ne apart]
    · rfl

/-- In a table which gives several markers their meanings, the others stand for what
they stood for before. -/
theorem meaning?_insertAll
    {byte : Meaning → UInt8}
    {meanings : List Meaning}
    (distinct : (meanings.map byte).Nodup)
    (holds : ∀ meaning ∈ meanings, table.Holds (byte meaning)) :
    (table.insertAll (meanings.map fun meaning => (byte meaning, meaning))).meaning? marker =
        some meaning ↔
      meaning ∈ meanings ∧ byte meaning = marker ∨
        marker ∉ meanings.map byte ∧ table.meaning? marker = some meaning := by
  induction meanings generalizing table with
  | nil => simp [insertAll]
  | cons first others inductionHypothesis =>
      rw [List.map_cons, List.nodup_cons] at distinct
      obtain ⟨inside, rest⟩ := List.forall_mem_cons.mp holds
      change ((table.insert (byte first) first).insertAll _).meaning? marker = some meaning ↔ _
      have still : ∀ meaning ∈ others, (table.insert (byte first) first).Holds (byte meaning) :=
        fun other member => holds_insert.mpr (rest other member)
      rw [inductionHypothesis distinct.2 still, meaning?_insert inside]
      by_cases own : marker = byte first
      · subst own
        have absent : ¬ (meaning ∈ others ∧ byte meaning = byte first) := fun both =>
          distinct.1 (both.2 ▸ List.mem_map_of_mem both.1)
        simp only [absent, distinct.1, if_true, not_false_eq_true, true_and, false_or,
          Option.some.injEq, List.mem_cons, List.map_cons, not_true_eq_false, false_and, or_false]
        constructor
        · rintro rfl
          exact ⟨Or.inl rfl, rfl⟩
        · rintro ⟨rfl | member, same⟩
          · rfl
          · exact absurd ⟨member, same⟩ absent
      · have other : ¬ (meaning = first ∧ byte meaning = marker) := by
          rintro ⟨rfl, same⟩
          exact own same.symm
        simp only [own, if_false, List.mem_cons, List.map_cons, or_and_right, other, false_or]

/-- In a table which stood for nothing, exactly the bytes of the meanings which it is
given stand for these. -/
theorem lookup_insertAll
    {byte : Meaning → UInt8}
    {meanings : List Meaning}
    (distinct : (meanings.map byte).Nodup)
    (holds : ∀ meaning ∈ meanings, table.Holds (byte meaning))
    (blank : ∀ marker, table.meaning? marker = none) :
    (table.insertAll (meanings.map fun meaning => (byte meaning, meaning))).lookup marker =
        .ok meaning ↔
      meaning ∈ meanings ∧ byte meaning = marker := by
  rw [lookup_eq_ok_iff, meaning?_insertAll distinct holds, blank]
  simp

end MarkerTable

namespace Jitlog

/-- A marker which a version has. -/
def Marker.IsIn (marker : Marker) (version : UInt16) : Prop :=
  marker ∈ Marker.early ∨ 3 ≤ version ∧ marker ∈ Marker.later

instance (marker : Marker) (version : UInt16) : Decidable (marker.IsIn version) := by
  unfold Marker.IsIn
  infer_instance

end Jitlog

namespace Profile

/-- A marker which a version has. -/
def Marker.IsIn (marker : Marker) (version : UInt16) : Prop :=
  marker ∈ earlyMarkers ∨ 2 ≤ version ∧ marker ∈ laterMarkers

instance (marker : Marker) (version : UInt16) : Decidable (marker.IsIn version) := by
  unfold Marker.IsIn
  infer_instance

end Profile

/-- One of the versions which both formats have. -/
structure Supported (version : UInt16) : Prop where
  first_le : 1 ≤ version
  le_last : version ≤ 3

theorem Supported.eq {version : UInt16} (supported : Supported version) :
    version = 1 ∨ version = 2 ∨ version = 3 := by
  have low := UInt16.le_iff_toNat_le.mp supported.first_le
  have high := UInt16.le_iff_toNat_le.mp supported.le_last
  simp only [← UInt16.toNat_inj]
  simp only [UInt16.reduceToNat] at low high ⊢
  omega

/-- The markers of a supported version of trace logs are known by their bytes. -/
theorem Jitlog.exists_markers {version : UInt16} (supported : Supported version) :
    ∃ markers, Jitlog.format.markers? version = some markers ∧
      ∀ marker meaning, markers.lookup marker = .ok meaning ↔
        meaning.IsIn version ∧ meaning.byte = marker := by
  have blank (last marker : UInt8) :
      (MarkerTable.empty version Marker.inputArguments.byte last : MarkerTable Marker).meaning?
        marker = none :=
    MarkerTable.meaning?_empty _ _ _ _
  rcases supported.eq with rfl | rfl | rfl
  · refine ⟨_, rfl, fun marker meaning => ?_⟩
    rw [MarkerTable.lookup_insertAll (by decide) (by decide) (blank _)]
    simp [Marker.IsIn]
  · refine ⟨_, rfl, fun marker meaning => ?_⟩
    rw [MarkerTable.lookup_insertAll (by decide) (by decide) (blank _)]
    simp [Marker.IsIn]
  · refine ⟨_, rfl, fun marker meaning => ?_⟩
    rw [MarkerTable.lookup_insertAll (by decide) (by decide) (blank _)]
    simp [Marker.IsIn]

/-- Only supported versions of trace logs have markers. -/
theorem Jitlog.supported_of_markers?
    {version : UInt16}
    {markers : MarkerTable Marker}
    (found : Jitlog.format.markers? version = some markers) :
    Supported version := by
  change Jitlog.markers? version = some markers at found
  unfold Jitlog.markers? at found
  dsimp only at found
  split at found
  · rename_i early
    rcases Bool.or_eq_true_iff.mp early with one | two
    · cases beq_iff_eq.mp one
      exact ⟨by decide, by decide⟩
    · cases beq_iff_eq.mp two
      exact ⟨by decide, by decide⟩
  · split at found
    · rename_i three
      cases beq_iff_eq.mp three
      exact ⟨by decide, by decide⟩
    · cases found

/-- The markers of a supported version of profiles are known by their bytes. -/
theorem Profile.exists_markers {version : UInt16} (supported : Supported version) :
    ∃ markers, Profile.format.markers? version = some markers ∧
      ∀ marker meaning, markers.lookup marker = .ok meaning ↔
        meaning.IsIn version ∧ meaning.byte = marker := by
  have blank (last marker : UInt8) :
      (MarkerTable.empty version Marker.stackTrace.byte last : MarkerTable Marker).meaning?
        marker = none :=
    MarkerTable.meaning?_empty _ _ _ _
  rcases supported.eq with rfl | rfl | rfl
  · refine ⟨_, rfl, fun marker meaning => ?_⟩
    rw [MarkerTable.lookup_insertAll (by decide) (by decide) (blank _)]
    simp [Marker.IsIn]
  · refine ⟨_, rfl, fun marker meaning => ?_⟩
    rw [MarkerTable.lookup_insertAll (by decide) (by decide) (blank _)]
    simp [Marker.IsIn]
  · refine ⟨_, rfl, fun marker meaning => ?_⟩
    rw [MarkerTable.lookup_insertAll (by decide) (by decide) (blank _)]
    simp [Marker.IsIn]

/-! ## Written headers -/

namespace Header

/-- A header which begins the logs of a format: it has the flag of the format and
a supported version, and the name of the machine fits into its field. -/
structure Begins (header : Header) (flag : UInt8) : Prop where
  formatFlag_eq : header.formatFlag = flag
  supported : Supported header.version
  fits : (Field.text header.machine).Fits header.words

variable {header : Header} {flag : UInt8}

/-- A written header is read back. -/
theorem Begins.reads_reading (begins : header.Begins flag) (start : Nat) :
    (reading flag).Reads start header.encode header :=
  Header.reads_reading.mpr ⟨begins.formatFlag_eq, begins.fits, rfl⟩

/-- A written header is parsed in front of any other bytes. -/
theorem Begins.parse_encode (begins : header.Begins flag) (rest : Bytes) :
    parse (header.encode ++ rest) flag = .ok (some (header, header.encode.length)) := by
  rw [parse, (begins.reads_reading 0).run_append]

/-- A log does not start like a compressed stream if its flag does not. -/
theorem Begins.not_magic_prefix
    (begins : header.Begins flag)
    (other : flag ≠ 0x28)
    (rest : Bytes) :
    ¬ Stream.Zstd.magic <+: header.encode ++ rest := by
  rintro ⟨behind, same⟩
  have first := congrArg List.head? same
  have flags : (0x28 : UInt8) = header.formatFlag := Option.some.inj first
  exact other (begins.formatFlag_eq.symm.trans flags.symm)

/-- A log which starts with a written header opens, and its reader stands behind the
header. -/
theorem Begins.exists_stands
    [Stream.Decompressor]
    {Marker Record Model : Type}
    {format : LogFormat Marker Record Model}
    {markers : MarkerTable Marker}
    (begins : header.Begins format.flag)
    (other : format.flag ≠ 0x28)
    (supported : format.markers? header.version = some markers)
    (bytes : Bytes)
    (chunk : Nat) :
    ∃ reader : LogReader format,
      LogReader.open? format (.ofBytes (header.encode ++ bytes)) chunk = .ok reader ∧
      reader.Stands { header, markers } (format.start header) header.encode.length bytes := by
  obtain ⟨reader, answered, opened, prompt⟩ :=
    LogReader.opened_ofBytes (begins.not_magic_prefix other bytes) (begins.parse_encode bytes)
      supported chunk
  have stands := opened.stands prompt
  rw [List.drop_left] at stands
  exact ⟨reader, answered, stands⟩

end Header

end RuntimeLog
